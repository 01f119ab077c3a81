import Mathlib.Data.List.Basic
import Mathlib.Data.List.Perm.Basic

/-! A greedy choice from a list: an item that is not barred is taken, and bars what conflicts with it. The result has no
conflicts, and every item that was left, unless barred at the start, conflicts with one that was taken before it. -/

namespace ArduinoK210.Greedy

variable {α : Type}

def bar (conflict : α → α → Bool) (item : α) (barred : α → Bool) : α → Bool := fun other => barred other || conflict item other

def greedy (conflict : α → α → Bool) : (α → Bool) → List α → List α
  | _, [] => []
  | barred, item :: items =>
    if barred item then greedy conflict barred items else item :: greedy conflict (bar conflict item barred) items

variable {conflict : α → α → Bool} {barred : α → Bool}

theorem greedy_barred {item : α} (items : List α) (out : barred item = true) :
    greedy conflict barred (item :: items) = greedy conflict barred items := by rw [greedy, if_pos out]

theorem greedy_taken {item : α} (items : List α) (free : barred item = false) :
    greedy conflict barred (item :: items) = item :: greedy conflict (bar conflict item barred) items := by
  rw [greedy, if_neg (by rw [free]; exact Bool.false_ne_true)]

theorem greedy_congr {barred other : α → Bool} {items : List α} (same : ∀ item ∈ items, barred item = other item) :
    greedy conflict barred items = greedy conflict other items := by
  induction items generalizing barred other with
  | nil => rfl
  | cons item items ih =>
    have rest : ∀ later ∈ items, barred later = other later := fun later member => same later (List.mem_cons_of_mem _ member)
    rw [greedy, greedy, same item List.mem_cons_self, ih rest]
    congr 2
    exact ih fun later member => congrArg (· || conflict item later) (rest later member)

theorem greedy_sublist (barred : α → Bool) (items : List α) : (greedy conflict barred items).Sublist items := by
  induction items generalizing barred with
  | nil => exact List.Sublist.refl _
  | cons item items ih =>
    cases status : barred item with
    | true =>
      rw [greedy_barred items status]
      exact (ih barred).cons item
    | false =>
      rw [greedy_taken items status]
      exact (ih _).cons_cons item

theorem greedy_free (barred : α → Bool) (items : List α) : ∀ item ∈ greedy conflict barred items, barred item = false := by
  induction items generalizing barred with
  | nil => exact fun item member => absurd member List.not_mem_nil
  | cons first items ih =>
    cases status : barred first with
    | true =>
      rw [greedy_barred items status]
      exact ih barred
    | false =>
      rw [greedy_taken items status]
      intro item member
      rcases List.mem_cons.mp member with rfl | later
      · exact status
      · exact (Bool.or_eq_false_iff.mp (ih _ item later)).1

/-- No two of the items taken are in conflict. -/
theorem greedy_apart (barred : α → Bool) (items : List α) :
    (greedy conflict barred items).Pairwise fun first second => conflict first second = false := by
  induction items generalizing barred with
  | nil => exact List.Pairwise.nil
  | cons item items ih =>
    cases status : barred item with
    | true =>
      rw [greedy_barred items status]
      exact ih barred
    | false =>
      rw [greedy_taken items status, List.pairwise_cons]
      exact ⟨fun other member => (Bool.or_eq_false_iff.mp (greedy_free _ items other member)).2, ih _⟩

/-- What was left conflicts with something taken before it. -/
theorem greedy_dominates {before : α → α → Prop} (barred : α → Bool) {items : List α} (ordered : items.Pairwise before) {item : α}
    (member : item ∈ items) (free : barred item = false) :
    item ∈ greedy conflict barred items ∨
      ∃ taken ∈ greedy conflict barred items, conflict taken item = true ∧ before taken item := by
  induction items generalizing barred with
  | nil => exact absurd member List.not_mem_nil
  | cons first items ih =>
    obtain ⟨ahead, ordered⟩ := List.pairwise_cons.mp ordered
    cases status : barred first with
    | true =>
      rw [greedy_barred items status]
      rcases List.mem_cons.mp member with rfl | later
      · rw [status] at free
        cases free
      · exact ih barred ordered later free
    | false =>
      rw [greedy_taken items status]
      rcases List.mem_cons.mp member with rfl | later
      · exact Or.inl List.mem_cons_self
      · by_cases clash : conflict first item = true
        · exact Or.inr ⟨first, List.mem_cons_self, clash, ahead item later⟩
        · have admitted : bar conflict first barred item = false :=
            Bool.or_eq_false_iff.mpr ⟨free, Bool.eq_false_iff.mpr clash⟩
          rcases ih _ ordered later admitted with taken | ⟨taken, chosen, clash, earlier⟩
          · exact Or.inl (List.mem_cons_of_mem _ taken)
          · exact Or.inr ⟨taken, List.mem_cons_of_mem _ chosen, clash, earlier⟩

end ArduinoK210.Greedy
