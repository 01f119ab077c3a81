import Mathlib.Data.Char
import Mathlib.Data.List.Lex
import Mathlib.Data.Prod.Lex
import Mathlib.Data.Sum.Order

/-! Dynamically typed values: integers, booleans, texts and tuples. A comparison of values whose types do not go together has
no answer, and one of tuples goes by their first items that are not equal. -/

namespace Dynamic

inductive Value where
  | int (number : Int)
  | bool (flag : Bool)
  | str (text : List Char)
  | tuple (items : List Value)

/-- The comparisons that need an order. -/
inductive Comparison where
  | less
  | lessEqual
  deriving DecidableEq

/-- A comparison in a linear order. -/
def Comparison.holds {α : Type} [LinearOrder α] (comparison : Comparison) (first second : α) : Bool :=
  match comparison with
  | .less => first < second
  | .lessEqual => first ≤ second

/-- A boolean is a number. -/
def Value.number : Value → Option Int
  | .int number => some number
  | .bool flag => some flag.toNat
  | .str _ => none
  | .tuple _ => none

/-- Equality always has an answer. -/
def Value.scalarEqual : Value → Value → Bool
  | .str first, .str second => first = second
  | first, second =>
      match first.number, second.number with
      | some first, some second => first = second
      | _, _ => false

def Value.scalarCompare (comparison : Comparison) : Value → Value → Option Bool
  | .str first, .str second => some (comparison.holds first second)
  | first, second =>
      match first.number, second.number with
      | some first, some second => some (comparison.holds first second)
      | _, _ => none

mutual
def Value.equal : Value → Value → Bool
  | .tuple first, .tuple second => equalItems first second
  | first, second => first.scalarEqual second
termination_by structural first => first

def equalItems : List Value → List Value → Bool
  | [], [] => true
  | first :: firsts, second :: seconds => first.equal second && equalItems firsts seconds
  | _, _ => false
termination_by structural firsts => firsts
end

mutual
def Value.compare (comparison : Comparison) : Value → Value → Option Bool
  | .tuple first, .tuple second => compareItems comparison first second
  | first, second => first.scalarCompare comparison second
termination_by structural first => first

def compareItems (comparison : Comparison) : List Value → List Value → Option Bool
  | [], seconds => some (comparison.holds 0 seconds.length)
  | _ :: _, [] => some false
  | first :: firsts, second :: seconds =>
      if first.equal second then compareItems comparison firsts seconds else first.compare comparison second
termination_by structural firsts => firsts
end

/-- The values of a type, whose comparisons are those of its order. -/
structure Faithful {α : Type} [LinearOrder α] (value : α → Value) : Prop where
  equal : ∀ first second, (value first).equal (value second) = true ↔ first = second
  compare : ∀ comparison first second, (value first).compare comparison (value second) = some (comparison.holds first second)

theorem Faithful.int : Faithful Value.int := ⟨fun _ _ => decide_eq_true_iff, fun _ _ _ => rfl⟩

theorem Faithful.str : Faithful Value.str := ⟨fun _ _ => decide_eq_true_iff, fun _ _ _ => rfl⟩

theorem Faithful.bool : Faithful Value.bool := by
  refine ⟨fun first second => ?_, fun comparison first second => ?_⟩
  · cases first <;> cases second <;> decide
  · cases comparison <;> cases first <;> cases second <;> rfl

section Order
variable {α : Type} [LinearOrder α] (comparison : Comparison)

theorem Comparison.holds_congr {β : Type} [LinearOrder β] {first second : α} {first' second' : β}
    (less : first < second ↔ first' < second') (more : second < first ↔ second' < first') :
    comparison.holds first second = comparison.holds first' second' := by
  cases comparison with
  | less => exact decide_eq_decide.mpr less
  | lessEqual => exact decide_eq_decide.mpr (by rw [← not_lt, ← not_lt, more])

theorem Comparison.holds_cons (first second : α) (firsts seconds : List α) :
    comparison.holds (first :: firsts) (second :: seconds) =
      if first = second then comparison.holds firsts seconds else comparison.holds first second := by
  split
  next same =>
    subst same
    exact comparison.holds_congr List.cons_lt_cons_self List.cons_lt_cons_self
  next other =>
    apply comparison.holds_congr
    · rw [List.cons_lt_cons_iff, or_iff_left fun both => other both.1]
    · rw [List.cons_lt_cons_iff, or_iff_left fun both => other both.1.symm]

theorem Comparison.holds_toLex {β : Type} [LinearOrder β] (first second : α) (rest rest' : β) :
    comparison.holds (toLex (first, rest)) (toLex (second, rest')) =
      if first = second then comparison.holds rest rest' else comparison.holds first second := by
  split
  next same =>
    subst same
    apply comparison.holds_congr
    · rw [Prod.Lex.toLex_lt_toLex, or_iff_right (lt_irrefl _), and_iff_right rfl]
    · rw [Prod.Lex.toLex_lt_toLex, or_iff_right (lt_irrefl _), and_iff_right rfl]
  next other =>
    apply comparison.holds_congr
    · rw [Prod.Lex.toLex_lt_toLex, or_iff_left fun both => other both.1]
    · rw [Prod.Lex.toLex_lt_toLex, or_iff_left fun both => other both.1.symm]

end Order

/-- An item of one of two types, with a number before it that says which. -/
def tag {α β : Type} (value : α → Value) (other : β → Value) (item : α ⊕ₗ β) : Value :=
  match ofLex item with
  | .inl item => .tuple [.int 0, value item]
  | .inr item => .tuple [.int 1, other item]

namespace Faithful
variable {α β γ : Type} [LinearOrder α] [LinearOrder β] [LinearOrder γ] {value : α → Value} {other : β → Value}
  {third : γ → Value}

theorem equalItems_cons (faithful : Faithful value) (first second : α) (firsts seconds : List Value) :
    equalItems (value first :: firsts) (value second :: seconds) = true ↔ first = second ∧ equalItems firsts seconds = true := by
  rw [equalItems, Bool.and_eq_true, faithful.equal]

/-- Items that are equal are passed over. -/
theorem compareItems_cons (faithful : Faithful value) (comparison : Comparison) (first second : α) (firsts seconds : List Value) :
    compareItems comparison (value first :: firsts) (value second :: seconds) =
      if first = second then compareItems comparison firsts seconds else some (comparison.holds first second) := by
  rw [compareItems, faithful.compare]
  exact if_congr (faithful.equal first second) rfl rfl

theorem equalItems_map (faithful : Faithful value) (firsts seconds : List α) :
    equalItems (firsts.map value) (seconds.map value) = true ↔ firsts = seconds := by
  induction firsts generalizing seconds with
  | nil => cases seconds <;> simp [equalItems]
  | cons first firsts ih =>
    cases seconds with
    | nil => simp [equalItems]
    | cons second seconds => rw [List.map_cons, List.map_cons, faithful.equalItems_cons, ih, List.cons.injEq]

theorem compareItems_map (faithful : Faithful value) (comparison : Comparison) (firsts seconds : List α) :
    compareItems comparison (firsts.map value) (seconds.map value) = some (comparison.holds firsts seconds) := by
  induction firsts generalizing seconds with
  | nil =>
    apply congrArg some
    apply comparison.holds_congr
    · cases seconds <;> simp
    · cases seconds <;> simp
  | cons first firsts ih =>
    cases seconds with
    | nil => cases comparison <;> simp [compareItems, Comparison.holds, ← not_lt]
    | cons second seconds =>
      rw [List.map_cons, List.map_cons, faithful.compareItems_cons, ih, comparison.holds_cons]
      split <;> rfl

theorem tuple (faithful : Faithful value) : Faithful fun items : List α => .tuple (items.map value) :=
  ⟨faithful.equalItems_map, faithful.compareItems_map⟩

theorem compareItems_single (faithful : Faithful value) (comparison : Comparison) (first second : α) :
    compareItems comparison [value first] [value second] = some (comparison.holds first second) := by
  rw [faithful.compareItems_cons]
  split
  next same => cases comparison <;> simp [same, compareItems, Comparison.holds]
  next => rfl

theorem triple (faithful : Faithful value) (faithful' : Faithful other) (faithful'' : Faithful third) :
    Faithful fun items : α ×ₗ β ×ₗ γ =>
      .tuple [value (ofLex items).1, other (ofLex (ofLex items).2).1, third (ofLex (ofLex items).2).2] := by
  refine ⟨fun first second => ?_, fun comparison first second => ?_⟩
  · obtain ⟨a, b, c⟩ := first
    obtain ⟨a', b', c'⟩ := second
    change equalItems [value a, other b, third c] [value a', other b', third c'] = true ↔ _
    rw [faithful.equalItems_cons, faithful'.equalItems_cons, faithful''.equalItems_cons]
    exact ⟨fun ⟨one, two, three, _⟩ => by rw [one, two, three], fun same => by cases same; exact ⟨rfl, rfl, rfl, rfl⟩⟩
  · obtain ⟨a, b, c⟩ := first
    obtain ⟨a', b', c'⟩ := second
    change compareItems comparison [value a, other b, third c] [value a', other b', third c'] =
      some (comparison.holds (toLex (a, toLex (b, c))) (toLex (a', toLex (b', c'))))
    rw [faithful.compareItems_cons, faithful'.compareItems_cons, faithful''.compareItems_single, comparison.holds_toLex,
      comparison.holds_toLex]
    split_ifs <;> rfl

theorem tagged (faithful : Faithful value) (faithful' : Faithful other) : Faithful (tag value other) := by
  refine ⟨fun first second => ?_, fun comparison first second => ?_⟩
  · rcases first with a | b <;> rcases second with a' | b'
    · change equalItems [.int 0, value a] [.int 0, value a'] = true ↔ _
      rw [Faithful.int.equalItems_cons, faithful.equalItems_cons]
      exact ⟨fun ⟨_, same, _⟩ => by rw [same], fun same => by cases same; exact ⟨rfl, rfl, rfl⟩⟩
    · change equalItems [.int 0, value a] [.int 1, other b'] = true ↔ _
      rw [Faithful.int.equalItems_cons]
      exact ⟨fun ⟨same, _⟩ => absurd same (by decide), fun same => by cases same⟩
    · change equalItems [.int 1, other b] [.int 0, value a'] = true ↔ _
      rw [Faithful.int.equalItems_cons]
      exact ⟨fun ⟨same, _⟩ => absurd same (by decide), fun same => by cases same⟩
    · change equalItems [.int 1, other b] [.int 1, other b'] = true ↔ _
      rw [Faithful.int.equalItems_cons, faithful'.equalItems_cons]
      exact ⟨fun ⟨_, same, _⟩ => by rw [same], fun same => by cases same; exact ⟨rfl, rfl, rfl⟩⟩
  · rcases first with a | b <;> rcases second with a' | b'
    · change compareItems comparison [.int 0, value a] [.int 0, value a'] = _
      rw [Faithful.int.compareItems_cons, if_pos rfl, faithful.compareItems_single]
      exact congrArg some (comparison.holds_congr Sum.Lex.inl_lt_inl_iff.symm Sum.Lex.inl_lt_inl_iff.symm)
    · change compareItems comparison [.int 0, value a] [.int 1, other b'] = _
      rw [Faithful.int.compareItems_cons, if_neg (by decide)]
      exact congrArg some (comparison.holds_congr (iff_of_true (by decide) (Sum.Lex.inl_lt_inr a b'))
        (iff_of_false (by decide) Sum.Lex.not_inr_lt_inl))
    · change compareItems comparison [.int 1, other b] [.int 0, value a'] = _
      rw [Faithful.int.compareItems_cons, if_neg (by decide)]
      exact congrArg some (comparison.holds_congr (iff_of_false (by decide) Sum.Lex.not_inr_lt_inl)
        (iff_of_true (by decide) (Sum.Lex.inl_lt_inr a' b)))
    · change compareItems comparison [.int 1, other b] [.int 1, other b'] = _
      rw [Faithful.int.compareItems_cons, if_pos rfl, faithful'.compareItems_single]
      exact congrArg some (comparison.holds_congr Sum.Lex.inr_lt_inr_iff.symm Sum.Lex.inr_lt_inr_iff.symm)

end Faithful

end Dynamic
