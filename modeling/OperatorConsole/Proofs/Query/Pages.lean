import Mathlib.Algebra.Order.Floor.Div

/-!
# Lists in pages

A list is cut into pages of one size, the last of which may hold fewer items.  The pages in a
row are the list.
-/

namespace OperatorConsole

namespace Query

variable {α : Type} (rows : List α) {size : Nat}

/-- The items of a page; the pages are counted from one. -/
def pageOfList (size page : Nat) : List α :=
  (rows.drop ((page - 1) * size)).take size

def lastPageOf (size count : Nat) : Nat :=
  Max.max 1 (count ⌈/⌉ size)

theorem take_pages (size count : Nat) :
    (List.range count).flatMap (fun i => pageOfList rows size (i + 1)) =
      rows.take (count * size) := by
  induction count with
  | zero => simp
  | succ count ih =>
      rw [List.range_succ, List.flatMap_append, ih, Nat.succ_mul, List.take_add]
      simp [pageOfList]

theorem le_lastPage (hsize : 0 < size) (count : Nat) : count ≤ lastPageOf size count * size := by
  have hceil : count ≤ size * (count ⌈/⌉ size) := (ceilDiv_le_iff_le_mul hsize).mp le_rfl
  rw [Nat.mul_comm]
  exact Nat.le_trans hceil (Nat.mul_le_mul_left size (Nat.le_max_right 1 _))

theorem lt_lastPage_iff (hsize : 0 < size) {count page : Nat} (hpage : 1 ≤ page) :
    page < lastPageOf size count ↔ page * size < count := by
  have hceil : ¬ count ⌈/⌉ size ≤ page ↔ ¬ count ≤ size * page :=
    not_congr (ceilDiv_le_iff_le_mul hsize)
  unfold lastPageOf
  rw [Nat.mul_comm]
  omega

theorem flatMap_pages (hsize : 0 < size) :
    (List.range (lastPageOf size rows.length)).flatMap (fun i => pageOfList rows size (i + 1)) =
      rows := by
  rw [take_pages]
  exact List.take_of_length_le (le_lastPage hsize rows.length)

theorem length_page (hsize : 0 < size) {page : Nat} (hpage : 1 ≤ page)
    (hbefore : page < lastPageOf size rows.length) : (pageOfList rows size page).length = size := by
  have hplace : (page - 1) * size + size = page * size := by
    rw [← Nat.succ_mul, Nat.succ_eq_add_one, Nat.sub_add_cancel hpage]
  have hitems := (lt_lastPage_iff hsize hpage).mp hbefore
  unfold pageOfList
  rw [List.length_take, List.length_drop]
  omega

theorem page_behind (hsize : 0 < size) {page : Nat} (hbehind : lastPageOf size rows.length < page) :
    pageOfList rows size page = [] := by
  have hplace : rows.length ≤ (page - 1) * size :=
    Nat.le_trans (le_lastPage hsize _) (Nat.mul_le_mul_right size (by omega))
  unfold pageOfList
  rw [List.drop_of_length_le hplace, List.take_nil]

theorem size_lt_iff (hsize : 0 < size) {page : Nat} (hpage : 1 ≤ page) :
    size < ((rows.drop ((page - 1) * size)).take (size + 1)).length ↔
      page < lastPageOf size rows.length := by
  have hplace : (page - 1) * size + size = page * size := by
    rw [← Nat.succ_mul, Nat.succ_eq_add_one, Nat.sub_add_cancel hpage]
  rw [lt_lastPage_iff hsize hpage, List.length_take, List.length_drop]
  omega

/-- No page up to the last one lies further out than there are items. -/
theorem place_le (hsize : 0 < size) {count page : Nat} (hpage : 1 ≤ page)
    (hlast : page ≤ lastPageOf size count) :
    page ≤ Max.max 1 count ∧ (page - 1) * size ≤ count := by
  rcases Nat.eq_or_lt_of_le hpage with rfl | hlater
  · simp
  · have hbefore : page - 1 < lastPageOf size count := by omega
    have hitems := (lt_lastPage_iff hsize (by omega)).mp hbefore
    have hplace : page - 1 ≤ (page - 1) * size := Nat.le_mul_of_pos_right _ hsize
    omega

end Query

end OperatorConsole
