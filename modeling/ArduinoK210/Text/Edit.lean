import ArduinoK210.Text.Content

/-! Changes in place. -/

namespace ArduinoK210.Text

open Nor (put slice)

variable {world : World} {id : Nat}

private theorem World.set_self (world : World) (id : Nat) : world.set id (world.str id) = world := by
  rw [World.set, Function.update_eq_self]

theorem map_became (sound : world.Sound) (alive : (world.str id).alive = true) {mem : Nat → UInt8} {size : Nat}
    {f : List UInt8 → List UInt8} (fits : size ≤ (world.str id).size)
    (inside : ∀ a, a < (world.str id).data ∨ (world.str id).data + (world.str id).capacity < a → mem a = world.mem a)
    (terminated : mem ((world.str id).data + size) = 0) (content : slice mem (world.str id).data size = f (world.content id)) :
    Became id ((world.value id).map f) world ({ world with mem }.set id { world.str id with size }) := by
  have fine := sound.fine id alive
  have capacity := fine.fits
  have flag : (world.str id).valid = false → size = 0 := fun invalid => by
    have empty : (world.str id).size = 0 := fine.invalid invalid
    omega
  have wrote : Wrote id (f (world.content id)) (world.str id).valid world ({ world with mem }.set id { world.str id with size }) :=
    edit_wrote sound alive (Nat.le_trans fits capacity) inside terminated flag content
  have became := wrote.became
  unfold World.value
  cases valid : (world.str id).valid with
  | true =>
    rw [valid] at became
    exact became
  | false =>
    rw [valid] at became
    exact became

theorem setCharAt_became (sound : world.Sound) (alive : (world.str id).alive = true) (index : Nat) (c : UInt8) :
    Became id ((world.value id).setCharAt index c) world (setCharAt id index c world) := by
  have length := content_length world id
  have fits := (sound.fine id alive).fits
  by_cases inside : index < (world.str id).size
  · have result : setCharAt id index c world =
        { world with mem := put world.mem ((world.str id).data + index) [c] }.set id
          { world.str id with size := (world.str id).size } := by
      unfold setCharAt
      rw [if_pos inside]
      exact (World.set_self (world.store _ _) id).symm
    rw [result]
    apply map_became sound alive (Nat.le_refl _)
    · intro a outside
      exact Nor.put_outside _ _ _ _ (by simp only [List.length_singleton]; omega)
    · rw [Nor.put_outside _ _ _ _ (by simp only [List.length_singleton]; omega)]
      exact (sound.fine id alive).terminated
    · apply List.ext_getElem?
      intro i
      rw [Nor.slice_getElem?, List.getElem?_set, length, World.content, Nor.slice_getElem?]
      by_cases same : index = i
      · have written : put world.mem ((world.str id).data + index) [c] ((world.str id).data + index) = c :=
          Nor.put_inside _ _ [c] 0 c rfl
        rw [if_pos same, ← same, if_pos inside, if_pos inside, written]
      · rw [if_neg same, Nor.put_outside _ _ _ _ (by simp only [List.length_singleton]; omega)]
  · have same : (world.value id).setCharAt index c = world.value id := by
      unfold Value.setCharAt World.value
      split
      · rw [Option.map_some, List.set_eq_of_length_le (by omega)]
      · rfl
    rw [same, setCharAt, if_neg inside]
    exact Became.refl sound alive

theorem replaceChar_became (sound : world.Sound) (alive : (world.str id).alive = true) (before after : UInt8) :
    Became id ((world.value id).replaceChar before after) world (replaceChar id before after world) := by
  have length : ((slice world.mem (world.str id).data (world.str id).size).map fun c => if c = before then after else c).length =
      (world.str id).size := by
    rw [List.length_map, Nor.slice_length]
  have fits := (sound.fine id alive).fits
  rw [← World.set_self (replaceChar id before after world) id]
  apply map_became sound alive (Nat.le_refl _)
  · intro a outside
    exact Nor.put_outside _ _ _ _ (by omega)
  · rw [Nor.put_outside _ _ _ _ (by omega)]
    exact (sound.fine id alive).terminated
  · have copied := Memory.slice_put world.mem (world.str id).data
      ((slice world.mem (world.str id).data (world.str id).size).map fun c => if c = before then after else c)
    rw [length] at copied
    exact copied

theorem remove_became (sound : world.Sound) (alive : (world.str id).alive = true) (first count : Nat) :
    Became id ((world.value id).remove first count) world (remove id first count world) := by
  have length := content_length world id
  have fits := (sound.fine id alive).fits
  by_cases past : (world.str id).size ≤ first
  · have same : (world.value id).remove first count = world.value id := by
      unfold Value.remove World.value
      split
      · rw [Option.map_some, List.take_of_length_le (by omega), List.drop_eq_nil_of_le (by omega), List.append_nil]
      · rfl
    rw [same, remove, if_pos past]
    exact Became.refl sound alive
  · have rest : (world.content id).drop (first + count) = (world.content id).drop (first +
        if (world.str id).size - first < count then (world.str id).size - first else count) := by
      split
      · rw [List.drop_eq_nil_of_le (by omega), List.drop_eq_nil_of_le (by omega)]
      · rfl
    have less : (if (world.str id).size - first < count then (world.str id).size - first else count) ≤ (world.str id).size - first := by
      split <;> omega
    unfold remove Value.remove
    rw [if_neg past]
    dsimp only
    generalize (if (world.str id).size - first < count then (world.str id).size - first else count) = fewer at rest less ⊢
    obtain ⟨kept, total⟩ : ∃ kept, (world.str id).size = first + fewer + kept := ⟨(world.str id).size - first - fewer, by omega⟩
    have moved : (world.str id).size - first - fewer = kept := by omega
    have size : (world.str id).size - fewer = first + kept := by omega
    rw [moved, size]
    have written := Memory.slice_put world.mem ((world.str id).data + first)
      (slice world.mem ((world.str id).data + first + fewer) (kept + 1))
    have length : (slice world.mem ((world.str id).data + first + fewer) (kept + 1)).length = kept + 1 := Nor.slice_length ..
    apply map_became sound alive (by omega)
    · intro a outside
      exact Nor.put_outside _ _ _ _ (by omega)
    · have last : (slice world.mem ((world.str id).data + first + fewer) (kept + 1))[kept]? = some 0 := by
        have terminated := (sound.fine id alive).terminated
        rw [total, ← Nat.add_assoc, ← Nat.add_assoc] at terminated
        rw [Nor.slice_getElem?, if_pos (Nat.lt_succ_self kept), terminated]
      rw [← Nat.add_assoc]
      exact Nor.put_inside _ _ _ kept 0 last
    · have front : slice (put world.mem ((world.str id).data + first)
          (slice world.mem ((world.str id).data + first + fewer) (kept + 1))) (world.str id).data first =
          (world.content id).take first := by
        rw [Memory.slice_put_apart _ (.inl (Nat.le_refl _)), World.content, Memory.slice_take _ _ (by omega)]
      have back : slice (put world.mem ((world.str id).data + first)
          (slice world.mem ((world.str id).data + first + fewer) (kept + 1))) ((world.str id).data + first) kept =
          (world.content id).drop (first + fewer) := by
        rw [length] at written
        rw [← Memory.slice_take _ _ (Nat.le_succ kept), written, Memory.slice_take _ _ (Nat.le_succ kept), Nat.add_assoc,
          ← Memory.slice_window world.mem _ (Nat.le_of_eq total.symm), List.take_of_length_le]
        · rfl
        · rw [List.length_drop, Nor.slice_length]
          omega
      rw [Memory.slice_add, front, back, rest]

theorem trimEnd_became : ∀ (size : Nat) {world : World}, world.Sound → (world.str id).alive = true → (world.str id).size = size →
    Became id ((world.value id).map (·.rdropWhile isspace)) world (trimEnd id world size) := by
  intro size
  induction size with
  | zero =>
    intro world sound alive size
    have same : (world.value id).map (·.rdropWhile isspace) = world.value id := by
      have empty : world.content id = [] := List.eq_nil_of_length_eq_zero ((content_length world id).trans size)
      unfold World.value
      rw [empty]
      split <;> rfl
    rw [same]
    exact Became.refl sound alive
  | succ size ih =>
    intro world sound alive total
    have fits := (sound.fine id alive).fits
    have split : world.content id = slice world.mem (world.str id).data size ++ [world.mem ((world.str id).data + size)] := by
      rw [World.content, total, Memory.slice_add]
      rfl
    rw [trimEnd]
    by_cases white : isspace (world.mem ((world.str id).data + size)) = true
    · rw [if_pos white]
      have shorter : Became id ((world.value id).map List.dropLast) world
          ({ world with mem := put world.mem ((world.str id).data + size) [0] }.set id { world.str id with size }) := by
        apply map_became sound alive (by omega)
        · intro a outside
          exact Nor.put_outside _ _ _ _ (by simp only [List.length_singleton]; omega)
        · exact Nor.put_inside _ _ [0] 0 0 rfl
        · rw [split, List.dropLast_concat]
          exact Memory.slice_put_apart _ (.inl (Nat.le_refl _))
      have rest := ih (Wrote.sound shorter sound) (shorter.moves.alive.trans alive) (by rw [World.set_str])
      rw [shorter.value, Option.map_map] at rest
      have same : (world.value id).map ((·.rdropWhile isspace) ∘ List.dropLast) = (world.value id).map (·.rdropWhile isspace) := by
        unfold World.value
        split
        · rw [Option.map_some, Option.map_some, Function.comp_apply, split, List.dropLast_concat, List.rdropWhile_concat_pos _ _ _ white]
        · rfl
      rw [same] at rest
      exact rest.behind shorter.moves
    · rw [if_neg white]
      have same : (world.value id).map (·.rdropWhile isspace) = world.value id := by
        unfold World.value
        split
        · rw [Option.map_some, split, List.rdropWhile_concat_neg _ _ _ white]
        · rfl
      rw [same]
      exact Became.refl sound alive

theorem dropWhile_slice (mem : Nat → UInt8) (base size : Nat) :
    (slice mem base size).dropWhile isspace =
      (slice mem base size).drop (((List.range size).find? fun i => !isspace (mem (base + i))).getD size) := by
  have place : (slice mem base size).findIdx (fun c => !isspace c) = (List.range size).findIdx fun i => !isspace (mem (base + i)) :=
    List.findIdx_map ..
  have least : (List.range size).findIdx (fun i => !isspace (mem (base + i))) ≤ size := by
    have bound : (List.range size).findIdx (fun i => !isspace (mem (base + i))) ≤ (List.range size).length :=
      List.findIdx_le_length
    rw [List.length_range] at bound
    exact bound
  rw [List.dropWhile_eq_drop_findIdx_not, place, List.find?_eq_getElem?_findIdx]
  congr 1
  by_cases inside : (List.range size).findIdx (fun i => !isspace (mem (base + i))) < size
  · rw [List.getElem?_range inside]
    rfl
  · rw [List.getElem?_eq_none (by rw [List.length_range]; exact Nat.le_of_not_lt inside)]
    exact Nat.le_antisymm least (Nat.le_of_not_lt inside)

private theorem trimStart_became (sound : world.Sound) (alive : (world.str id).alive = true) :
    Became id ((world.value id).map (·.dropWhile isspace)) world (remove id 0
      (((List.range (world.str id).size).find? fun i => !isspace (world.mem ((world.str id).data + i))).getD
        (world.str id).size) world) := by
  have dropped := dropWhile_slice world.mem (world.str id).data (world.str id).size
  generalize (((List.range (world.str id).size).find? fun i => !isspace (world.mem ((world.str id).data + i))).getD
    (world.str id).size) = first at dropped ⊢
  have same : (world.value id).map (·.dropWhile isspace) = (world.value id).remove 0 first := by
    unfold World.value Value.remove
    split
    · rw [Option.map_some, Option.map_some, World.content, dropped, List.take_zero, List.nil_append, Nat.zero_add]
    · rfl
  rw [same]
  exact remove_became sound alive 0 first

theorem trim_became (sound : world.Sound) (alive : (world.str id).alive = true) :
    Became id (world.value id).trim world (trim id world) := by
  have back := trimEnd_became _ sound alive rfl
  have front := trimStart_became (Wrote.sound back sound) (back.moves.alive.trans alive)
  rw [back.value, Option.map_map] at front
  exact front.behind back.moves

end ArduinoK210.Text
