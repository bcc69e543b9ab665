import OperatorConsole.Proofs.Action.Contract

/-!
# Watched hosts

To say what an operation calls, and in which order, its host is watched: beside the state
of the host stands a list of events.  The parts of an operation that are of interest note
an event; all other parts run on the host as before and note none.

Watching changes nothing: an operation on a watched host agrees with the operation on the
host itself, and the contract may also tell what becomes of the events.
-/

namespace OperatorConsole

/-- The state of a host and the events that were noted, the oldest first. -/
structure Watched (σ ε : Type) where
  host : σ
  events : List ε

namespace Session

def forget (s : Session (Watched σ ε)) : Session σ :=
  ⟨s.host.host, s.journal⟩

def watched (s : Session σ) : Session (Watched σ ε) :=
  ⟨⟨s.host, []⟩, s.journal⟩

end Session

namespace Action

def note (event : ε) : Action (Watched σ ε) Unit :=
  modify fun s => { s with host := { s.host with events := s.host.events ++ [event] } }

def watch (a : Action σ α) : Action (Watched σ ε) α :=
  fun s =>
    match a s.forget with
    | (result, t) => (result, ⟨⟨t.host, s.host.events⟩, t.journal⟩)

@[simp] theorem note_apply (event : ε) (s : Session (Watched σ ε)) :
    note event s =
      (.ok (), { s with host := { s.host with events := s.host.events ++ [event] } }) := rfl

/-! ## Contracts -/

/-- A watched host beside the host itself, with what is known of the events. -/
def Tracks (known : List ε -> Prop) (w : Watched σ ε) (host : σ) : Prop :=
  w.host = host ∧ known w.events

variable {known : List ε -> Prop} {good : α -> Prop} {bad : Failure -> Prop}

theorem Agree.watchedSide {a : Action (Watched σ ε) α} {b : Action σ α}
    (hagree : Agree (Tracks known) good bad a b) {s : Session (Watched σ ε)}
    (hs : known s.host.events) :
    known (a s).2.host.events ∧ Ends good bad (a s).1 := by
  rcases hagree s s.forget ⟨rfl, hs⟩ rfl with ⟨hhosts, _, _, hends⟩
  exact ⟨hhosts.2, hends⟩

theorem Agree.sameEvents {a : Action (Watched σ ε) α} {b : Action σ α} {events : List ε}
    (hagree : Agree (Tracks fun noted => noted = events) good bad a b)
    {s : Session (Watched σ ε)} (hs : s.host.events = events) :
    (a s).2.host.events = events ∧ Ends good bad (a s).1 :=
  hagree.watchedSide hs

theorem Agree.forget_eq {a : Action (Watched σ ε) α} {b : Action σ α}
    (hagree : Agree (Tracks fun _ => True) good bad a b) (s : Session (Watched σ ε)) :
    ((a s).1, (a s).2.forget) = b s.forget := by
  rcases hagree s s.forget ⟨rfl, trivial⟩ rfl with ⟨hhosts, hjournals, hresults, _⟩
  have hsession : (a s).2.forget = (b s.forget).2 := by
    rw [Session.forget, hhosts.1, hjournals]
  exact Prod.ext hresults hsession

theorem Agree.watch {a : Action σ α} (ha : forall s, Ends good bad (a s).1) :
    Agree (Tracks known) good bad (watch a) a := by
  rintro ⟨⟨host, events⟩, journal⟩ ⟨host', journal'⟩ ⟨hhost, hknown⟩ hjournals
  change host = host' at hhost
  change journal = journal' at hjournals
  subst hhost
  subst hjournals
  exact ⟨⟨rfl, hknown⟩, rfl, rfl, ha _⟩

theorem Agree.afterNote {event : ε} {a : Action (Watched σ ε) α} {b : Action σ α}
    (hevent : forall events, known events -> known (events ++ [event]))
    (hagree : Agree (Tracks known) good bad a b) :
    Agree (Tracks known) good bad (note event >>= fun _ => a) b := by
  intro s t hhosts hjournals
  rw [bind_apply, note_apply, next_ok]
  exact hagree _ t ⟨hhosts.1, hevent _ hhosts.2⟩ hjournals

end Action

end OperatorConsole
