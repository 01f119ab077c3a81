import Mathlib.Data.List.Nodup

/-! The table that lends the first four DMAC channels. -/

namespace ArduinoK210.Dma

def dmacChannelMax : Nat := 6

structure DmaChnInfo where
  chnSts : Bool
  chn : Nat
  deriving DecidableEq

/-- Channels 4 and 5 are left out of the table. -/
def dmaChnInfo : List DmaChnInfo := [⟨false, 0⟩, ⟨false, 1⟩, ⟨false, 2⟩, ⟨false, 3⟩]

def halDmaGetFreeChn : List DmaChnInfo → Nat × List DmaChnInfo
  | [] => (dmacChannelMax, [])
  | info :: rest =>
    if info.chnSts = false then (info.chn, { info with chnSts := true } :: rest)
    else ((halDmaGetFreeChn rest).1, info :: (halDmaGetFreeChn rest).2)

def clearFirst (chn : Nat) : List DmaChnInfo → List DmaChnInfo
  | [] => []
  | info :: rest => if chn = info.chn then { info with chnSts := false } :: rest else info :: clearFirst chn rest

def halDmaReleasChn (chn : Nat) (table : List DmaChnInfo) : List DmaChnInfo :=
  if table.length ≤ chn then table else clearFirst chn table

def Used (table : List DmaChnInfo) (chn : Nat) : Prop := ∃ info ∈ table, info.chn = chn ∧ info.chnSts = true

variable {table rest : List DmaChnInfo} {info : DmaChnInfo} {chn : Nat}

private theorem used_cons : Used (info :: rest) chn ↔ (info.chn = chn ∧ info.chnSts = true) ∨ Used rest chn := by
  simp [Used]

theorem getFreeChn_chns (table : List DmaChnInfo) :
    (halDmaGetFreeChn table).2.map DmaChnInfo.chn = table.map DmaChnInfo.chn := by
  induction table with
  | nil => rfl
  | cons info rest ih =>
    unfold halDmaGetFreeChn
    split
    next => rfl
    next => simp only [List.map_cons, ih]

theorem releasChn_chns (chn : Nat) (table : List DmaChnInfo) :
    (halDmaReleasChn chn table).map DmaChnInfo.chn = table.map DmaChnInfo.chn := by
  unfold halDmaReleasChn
  split
  next => rfl
  next =>
    clear * -
    induction table with
    | nil => rfl
    | cons info rest ih =>
      unfold clearFirst
      split
      next => rfl
      next => simp only [List.map_cons, ih]

theorem getFreeChn_first (table : List DmaChnInfo) :
    (halDmaGetFreeChn table).1 = ((table.find? fun info => !info.chnSts).map DmaChnInfo.chn).getD dmacChannelMax := by
  induction table with
  | nil => rfl
  | cons info rest ih =>
    unfold halDmaGetFreeChn
    cases busy : info.chnSts with
    | false => simp [busy]
    | true => simp [busy, ih]

theorem getFreeChn_mem (table : List DmaChnInfo) :
    (halDmaGetFreeChn table).1 = dmacChannelMax ∨ (halDmaGetFreeChn table).1 ∈ table.map DmaChnInfo.chn := by
  induction table with
  | nil => exact .inl rfl
  | cons info rest ih =>
    unfold halDmaGetFreeChn
    split
    next => exact .inr (by simp)
    next =>
      rcases ih with none | some
      · exact .inl none
      · exact .inr (List.mem_cons_of_mem _ some)

theorem getFreeChn_unused (apart : (table.map DmaChnInfo.chn).Nodup)
    (small : ∀ info ∈ table, info.chn < dmacChannelMax) : ¬ Used table (halDmaGetFreeChn table).1 := by
  induction table with
  | nil => simp [Used]
  | cons info rest ih =>
    obtain ⟨fresh, later⟩ := List.nodup_cons.mp apart
    have unused := ih later fun other member => small other (List.mem_cons_of_mem _ member)
    unfold halDmaGetFreeChn
    rw [used_cons]
    split
    next free =>
      intro used
      rcases used with here | ⟨other, member, same, _⟩
      · exact absurd here.2 (by simp [free])
      · have equal : other.chn = info.chn := same
        exact fresh (equal ▸ List.mem_map_of_mem member)
    next =>
      intro used
      rcases used with here | there
      · rcases getFreeChn_mem rest with none | some
        · exact absurd (here.1.trans none) (Nat.ne_of_lt (small info List.mem_cons_self))
        · exact fresh (here.1 ▸ some)
      · exact unused there

/-- After the call the rows in use are those of before and the one handed out. -/
theorem getFreeChn_used (table : List DmaChnInfo) (chn : Nat) :
    Used (halDmaGetFreeChn table).2 chn ↔
      Used table chn ∨ (chn = (halDmaGetFreeChn table).1 ∧ chn ∈ table.map DmaChnInfo.chn) := by
  induction table with
  | nil => simp [Used, halDmaGetFreeChn]
  | cons info rest ih =>
    unfold halDmaGetFreeChn
    cases busy : info.chnSts with
    | false =>
      simp only [if_true, used_cons, busy, List.map_cons, List.mem_cons, Bool.false_eq_true, and_false, false_or, and_true]
      grind
    | true =>
      simp only [Bool.true_eq_false, if_false, used_cons, busy, ih, List.map_cons, List.mem_cons, and_true]
      grind

theorem clearFirst_used (apart : (table.map DmaChnInfo.chn).Nodup) (chn other : Nat) :
    Used (clearFirst chn table) other ↔ Used table other ∧ other ≠ chn := by
  induction table with
  | nil => simp [Used, clearFirst]
  | cons info rest ih =>
    obtain ⟨fresh, later⟩ := List.nodup_cons.mp apart
    have absent : ¬ Used rest info.chn := by
      intro ⟨row, member, same, _⟩
      exact fresh (same ▸ List.mem_map_of_mem member)
    unfold clearFirst
    split
    next here =>
      simp only [used_cons, Bool.false_eq_true, and_false, false_or]
      grind
    next elsewhere =>
      simp only [used_cons, ih later]
      grind

end ArduinoK210.Dma
