import ArduinoK210.Timer.Channels
import Mathlib.Data.Fintype.EquivFin

/-! Who owns which timer channel. The table stays in step with its clients as
long as no Tone pin meets the placeholder number of a live Ticker. -/

namespace ArduinoK210.Timer

namespace ChannelMap

private theorem placeHolderPin_injective {first second : Fin 12} (same : placeHolderPin first = placeHolderPin second) :
    first = second := by
  apply Fin.ext
  simp only [placeHolderPin] at same
  omega

/-- A table without repeated pins stays so when a row gets a pin that no other row carries. -/
theorem distinct_update {row : Fin 12 → Int} {chn : Fin 12} {value : Int}
    (distinct : ∀ first second, row first = row second → row first ≠ -1 → first = second)
    (alone : ∀ i, row i = value → i = chn) (first second : Fin 12)
    (same : (if first = chn then value else row first) = if second = chn then value else row second)
    (used : (if first = chn then value else row first) ≠ -1) : first = second := by
  by_cases left : first = chn
  · by_cases right : second = chn
    · exact left.trans right.symm
    · rw [if_pos left, if_neg right] at same
      exact absurd (alone second same.symm) right
  · by_cases right : second = chn
    · rw [if_neg left, if_pos right] at same
      exact absurd (alone first same) left
    · rw [if_neg left, if_neg right] at same
      rw [if_neg left] at used
      exact distinct first second same used

private theorem placeHolderPin_ne_free (index : Fin 12) : placeHolderPin index ≠ -1 := by
  simp only [placeHolderPin]
  omega

/-- A lookup answers with a row that already carries the pin, or with a free row
when none does. -/
theorem getFreeTimerChn_some {map : ChannelMap} {pin : Int} {chn : Fin 12}
    (found : map.getFreeTimerChn pin = some chn) :
    map.pin chn = pin ∨ (∀ i, map.pin i ≠ pin) ∧ map.pin chn = -1 := by
  unfold getFreeTimerChn at found
  split at found
  next index assigned =>
    cases found
    have here := Fin.eq_true_of_find?_eq_some assigned
    exact .inl (of_decide_eq_true here).symm
  next missing =>
    have free := of_decide_eq_true (Fin.eq_true_of_find?_eq_some found)
    refine .inr ⟨fun i same => ?_, free.symm⟩
    have absent := Fin.eq_false_of_find?_eq_none missing i
    exact of_decide_eq_false absent same.symm

private theorem getFreeTimerChn_none {map : ChannelMap} {pin : Int} (missing : map.getFreeTimerChn pin = none) (i : Fin 12) :
    map.pin i ≠ -1 := by
  unfold getFreeTimerChn at missing
  split at missing
  next => cases missing
  next =>
    intro free
    exact of_decide_eq_false (Fin.eq_false_of_find?_eq_none missing i) free.symm

private theorem getFreeTimerChn_assigned {map : ChannelMap} {pin : Int} {chn : Fin 12} (carried : map.pin chn = pin) :
    ∃ found, map.getFreeTimerChn pin = some found ∧ map.pin found = pin := by
  unfold getFreeTimerChn
  split
  next index assigned => exact ⟨index, rfl, (of_decide_eq_true (Fin.eq_true_of_find?_eq_some assigned)).symm⟩
  next missing => exact absurd carried.symm (of_decide_eq_false (Fin.eq_false_of_find?_eq_none missing chn))

theorem getFreeTimerChn_lowest {map : ChannelMap} {pin : Int} {chn : Fin 12} (found : map.getFreeTimerChn pin = some chn)
    (absent : ∀ i, map.pin i ≠ pin) (lower : Fin 12) (below : lower < chn) : map.pin lower ≠ -1 := by
  unfold getFreeTimerChn at found
  split at found
  next index assigned =>
    exact absurd (of_decide_eq_true (Fin.eq_true_of_find?_eq_some assigned)).symm (absent index)
  next =>
    have before := (Fin.find?_eq_some_iff.mp found).2 lower below
    exact fun free => of_decide_eq_false before free.symm

private theorem halTimerSetPinFunc_found {map : ChannelMap} {pin : Nat} {chn : Fin 12}
    (found : map.getFreeTimerChn pin = some chn) :
    map.halTimerSetPinFunc pin = (some chn, { map.setPin chn pin with
      fpioa := map.fpioa.halFpioaSetPinFunc pin (Gpio.funcTimer0Toggle1 + chn.val) }) := by
  unfold halTimerSetPinFunc
  rw [found]

private theorem halTimerSetPinFunc_missing {map : ChannelMap} {pin : Nat} (missing : map.getFreeTimerChn pin = none) :
    map.halTimerSetPinFunc pin = (none, map) := by
  unfold halTimerSetPinFunc
  rw [missing]

private theorem firstPlaceHolder_some {map : ChannelMap} {index : Fin 12} (first : map.firstPlaceHolder = some index) :
    map.placeHolder index = false := by
  simpa using Fin.eq_true_of_find?_eq_some first

private theorem firstPlaceHolder_none {map : ChannelMap} (missing : map.firstPlaceHolder = none) (index : Fin 12) :
    map.placeHolder index = true := by
  simpa using Fin.eq_false_of_find?_eq_none missing index

end ChannelMap

namespace Clients

/-- The table agrees with its clients: every row that is in use belongs to the
Tone pin it names or to a Ticker whose placeholder is flagged. -/
structure Consistent (clients : Clients) : Prop where
  tone : ∀ pin chn, clients.tone pin = some chn → clients.map.pin chn = pin
  ticker : ∀ chn ∈ clients.tickers, ∃ index,
    clients.map.pin chn = placeHolderPin index ∧ clients.map.placeHolder index = true
  owned : ∀ chn, clients.map.pin chn ≠ -1 → (∃ pin, clients.tone pin = some chn) ∨ chn ∈ clients.tickers
  distinct : ∀ first second, clients.map.pin first = clients.map.pin second → clients.map.pin first ≠ -1 → first = second
  held : ∀ index, clients.map.placeHolder index = true →
    ∃ chn ∈ clients.tickers, clients.map.pin chn = placeHolderPin index
  apart : ∀ pin chn, clients.tone pin = some chn → chn ∉ clients.tickers
  nodup : clients.tickers.Nodup

/-- Every channel has at most one owner, a Tone pin or a Ticker. -/
structure OneOwner (clients : Clients) : Prop where
  tones : ∀ first second chn, clients.tone first = some chn → clients.tone second = some chn → first = second
  apart : ∀ pin chn, clients.tone pin = some chn → chn ∉ clients.tickers
  tickers : clients.tickers.Nodup

def Free (clients : Clients) (chn : Fin 12) : Prop := (∀ pin, clients.tone pin ≠ some chn) ∧ chn ∉ clients.tickers

/-- Tickers only release channels that they hold. -/
def Legal : Op → Clients → Prop
  | .releaseChn chn, clients => chn ∈ clients.tickers
  | .setPinFunc _, _ | .clrPinFunc _, _ | .getFreeChn, _ => True

/-- No Tone pin is the placeholder of a live Ticker when it is set or cleared, and
no Ticker takes a placeholder whose number is a Tone pin of the table. -/
def Separate : Op → Clients → Prop
  | .setPinFunc pin, clients | .clrPinFunc pin, clients =>
    ∀ index, clients.map.placeHolder index = true → (pin.val : Int) ≠ placeHolderPin index
  | .getFreeChn, clients =>
    ∀ index, clients.map.firstPlaceHolder = some index → ∀ chn, clients.map.pin chn ≠ placeHolderPin index
  | .releaseChn _, _ => True

instance : ∀ op clients, Decidable (Legal op clients)
  | .releaseChn chn, clients => inferInstanceAs (Decidable (chn ∈ clients.tickers))
  | .setPinFunc _, _ | .clrPinFunc _, _ | .getFreeChn, _ => inferInstanceAs (Decidable True)

instance : ∀ op clients, Decidable (Separate op clients)
  | .setPinFunc pin, clients | .clrPinFunc pin, clients =>
    inferInstanceAs (Decidable (∀ index, clients.map.placeHolder index = true → (pin.val : Int) ≠ placeHolderPin index))
  | .getFreeChn, clients =>
    inferInstanceAs (Decidable (∀ index, clients.map.firstPlaceHolder = some index →
      ∀ chn, clients.map.pin chn ≠ placeHolderPin index))
  | .releaseChn _, _ => inferInstanceAs (Decidable True)

/-- What each call promises its caller and the other clients. -/
def Promise (clients : Clients) : Op → Prop
  | .setPinFunc pin => ∀ chn, (clients.map.halTimerSetPinFunc pin).1 = some chn →
    (∀ other, clients.tone other = some chn → other = pin) ∧ chn ∉ clients.tickers
  | .clrPinFunc pin => ∀ chn ∈ clients.tickers,
    (clients.map.halTimerClrPinFunc pin).pin chn = clients.map.pin chn
  | .getFreeChn =>
    (∀ chn, clients.map.halTimerGetFreeChn.1 = some chn → clients.Free chn) ∧
      ((∃ chn, clients.Free chn) → clients.map.halTimerGetFreeChn.1.isSome)
  | .releaseChn chn => ∃ index, clients.map.pin chn = placeHolderPin index ∧
    clients.map.halTimerReleaseChn chn = (clients.map.setPin chn (-1)).setPlaceHolder index false

variable {clients : Clients}

private theorem Consistent.oneOwner (consistent : Consistent clients) : OneOwner clients := by
  refine ⟨fun first second chn left right => ?_, consistent.apart, consistent.nodup⟩
  have same := (consistent.tone first chn left).symm.trans (consistent.tone second chn right)
  exact Int.ofNat_inj.mp same

/-- A row that no client holds is marked free, and a free row has no holder. -/
theorem Consistent.free_iff (consistent : Consistent clients) (chn : Fin 12) :
    clients.Free chn ↔ clients.map.pin chn = -1 := by
  constructor
  · intro free
    by_contra used
    rcases consistent.owned chn used with ⟨pin, toned⟩ | ticking
    · exact free.1 pin toned
    · exact free.2 ticking
  · intro free
    refine ⟨fun pin toned => ?_, fun ticking => ?_⟩
    · have carried := consistent.tone pin chn toned
      omega
    · obtain ⟨index, carried, _⟩ := consistent.ticker chn ticking
      exact placeHolderPin_ne_free index (carried.symm.trans free)
where
  placeHolderPin_ne_free := ChannelMap.placeHolderPin_ne_free

/-- With a free channel there is a free placeholder: twelve flagged placeholders
would stand for twelve different channels. -/
theorem Consistent.placeHolder_left (consistent : Consistent clients) {chn : Fin 12} (free : clients.map.pin chn = -1) :
    ∃ index, clients.map.firstPlaceHolder = some index := by
  by_contra missing
  have every := fun index => ChannelMap.firstPlaceHolder_none (Option.not_isSome_iff_eq_none.mp
    (fun some => missing (Option.isSome_iff_exists.mp some))) index
  choose channel _ carried using fun index => consistent.held index (every index)
  have injective : Function.Injective channel := by
    intro first second same
    apply ChannelMap.placeHolderPin_injective
    rw [← carried first, ← carried second, same]
  obtain ⟨index, here⟩ := Finite.injective_iff_surjective.mp injective chn
  exact ChannelMap.placeHolderPin_ne_free index ((carried index).symm.trans (here ▸ free))

theorem initial_consistent (fpioa : Gpio.Fpioa) : Consistent (initial fpioa) := by
  constructor
  all_goals simp [initial]

private theorem Consistent.setPinFunc_returns (consistent : Consistent clients) (pin : Nat)
    (separate : ∀ index, clients.map.placeHolder index = true → (pin : Int) ≠ placeHolderPin index)
    {chn : Fin 12} (found : clients.map.getFreeTimerChn pin = some chn) :
    clients.tone pin = some chn ∨ clients.tone pin = none ∧ clients.map.pin chn = -1 ∧ ∀ i, clients.map.pin i ≠ pin := by
  rcases ChannelMap.getFreeTimerChn_some found with carried | ⟨absent, free⟩
  · rcases consistent.owned chn (by rw [carried]; omega) with ⟨other, toned⟩ | ticking
    · have same := (consistent.tone other chn toned).symm.trans carried
      rw [Int.ofNat_inj.mp same] at toned
      exact .inl toned
    · obtain ⟨index, named, flagged⟩ := consistent.ticker chn ticking
      exact absurd (carried.symm.trans named) (separate index flagged)
  · refine .inr ⟨?_, free, absent⟩
    cases toned : clients.tone pin with
    | none => rfl
    | some other => exact absurd (consistent.tone pin other toned) (absent other)

/-- The row that a pin is given belongs to no Ticker and to no other pin. -/
theorem Consistent.setPinFunc_alone (consistent : Consistent clients) (pin : Nat)
    (separate : ∀ index, clients.map.placeHolder index = true → (pin : Int) ≠ placeHolderPin index)
    {chn : Fin 12} (found : clients.map.getFreeTimerChn pin = some chn) :
    chn ∉ clients.tickers ∧ (∀ other, clients.tone other = some chn → other = pin) ∧
      ∀ i, clients.map.pin i = pin → i = chn := by
  rcases consistent.setPinFunc_returns pin separate found with own | ⟨_, free, absent⟩
  · refine ⟨consistent.apart pin chn own, fun other toned => consistent.oneOwner.tones other pin chn toned own, ?_⟩
    intro i carried
    exact consistent.distinct i chn (carried.trans (consistent.tone pin chn own).symm) (by rw [carried]; omega)
  · have unheld := (consistent.free_iff chn).mpr free
    exact ⟨unheld.2, fun other toned => absurd toned (unheld.1 other), fun i carried => absurd carried (absent i)⟩

private theorem setPinFunc_missing {pin : Nat} (missing : clients.map.getFreeTimerChn pin = none) :
    clients.setPinFunc pin = clients := by
  unfold Clients.setPinFunc
  rw [ChannelMap.halTimerSetPinFunc_missing missing]
  simp

/-- What a row given to a pin changes in the table and in what the clients hold. -/
theorem setPinFunc_found {pin : Nat} {chn : Fin 12} (found : clients.map.getFreeTimerChn pin = some chn) :
    (clients.setPinFunc pin).tone = (fun p => if p = pin then some chn else clients.tone p) ∧
      (clients.setPinFunc pin).map.pin = (fun i => if i = chn then (pin : Int) else clients.map.pin i) ∧
      (clients.setPinFunc pin).map.placeHolder = clients.map.placeHolder := by
  unfold Clients.setPinFunc
  rw [ChannelMap.halTimerSetPinFunc_found found]
  exact ⟨by simp, rfl, rfl⟩

private theorem Consistent.setPinFunc (consistent : Consistent clients) (pin : Nat)
    (separate : ∀ index, clients.map.placeHolder index = true → (pin : Int) ≠ placeHolderPin index) :
    Consistent (clients.setPinFunc pin) := by
  cases found : clients.map.getFreeTimerChn pin with
  | none =>
    rw [setPinFunc_missing found]
    exact consistent
  | some chn =>
    obtain ⟨tone, row, flags⟩ := setPinFunc_found found
    obtain ⟨outside, others, alone⟩ := consistent.setPinFunc_alone pin separate found
    have elsewhere : ∀ i ∈ clients.tickers, i ≠ chn := fun i ticking same => outside (same ▸ ticking)
    constructor
    · intro p i toned
      simp only [tone] at toned
      simp only [row]
      split at toned
      next same =>
        cases toned
        simp [same]
      next different =>
        have apart : i ≠ chn := fun same => different (others p (same ▸ toned))
        rw [if_neg apart]
        exact consistent.tone p i toned
    · intro i ticking
      simp only [row, flags, if_neg (elsewhere i ticking)]
      exact consistent.ticker i ticking
    · intro i used
      simp only [row] at used
      simp only [tone]
      by_cases same : i = chn
      · exact .inl ⟨pin, by simp [same]⟩
      · rw [if_neg same] at used
        rcases consistent.owned i used with ⟨p, toned⟩ | ticking
        · have different : p ≠ pin := by
            intro this
            subst this
            exact same (alone i (consistent.tone p i toned))
          exact .inl ⟨p, by rw [if_neg different]; exact toned⟩
        · exact .inr ticking
    · rw [row]
      exact ChannelMap.distinct_update consistent.distinct alone
    · intro index flagged
      rw [flags] at flagged
      obtain ⟨i, ticking, named⟩ := consistent.held index flagged
      refine ⟨i, ticking, ?_⟩
      simp only [row, if_neg (elsewhere i ticking)]
      exact named
    · intro p i toned
      simp only [tone] at toned
      split at toned
      next => cases toned; exact outside
      next => exact consistent.apart p i toned
    · exact consistent.nodup

private theorem Consistent.clrPinFunc (consistent : Consistent clients) (pin : Nat)
    (separate : ∀ index, clients.map.placeHolder index = true → (pin : Int) ≠ placeHolderPin index) :
    Consistent (clients.clrPinFunc pin) := by
  have kept : ∀ chn, clients.map.pin chn ≠ pin →
      (clients.clrPinFunc pin).map.pin chn = clients.map.pin chn := by
    intro chn different
    simp [Clients.clrPinFunc, ChannelMap.halTimerClrPinFunc, Ne.symm different]
  have ticking : ∀ chn ∈ clients.tickers, clients.map.pin chn ≠ pin := by
    intro chn member same
    obtain ⟨index, named, flagged⟩ := consistent.ticker chn member
    exact separate index flagged (same.symm.trans named)
  have used : ∀ chn, (clients.clrPinFunc pin).map.pin chn ≠ -1 →
      clients.map.pin chn ≠ pin ∧ clients.map.pin chn ≠ -1 := by
    intro chn left
    simp only [Clients.clrPinFunc, ChannelMap.halTimerClrPinFunc] at left
    split at left
    next => exact absurd rfl left
    next different => exact ⟨Ne.symm different, left⟩
  constructor
  · intro p chn toned
    simp only [Clients.clrPinFunc] at toned
    split at toned
    next => cases toned
    next different =>
      have carried := consistent.tone p chn toned
      rw [kept chn (by omega)]
      exact carried
  · intro chn member
    rw [kept chn (ticking chn member)]
    exact consistent.ticker chn member
  · intro chn left
    obtain ⟨different, inUse⟩ := used chn left
    rcases consistent.owned chn inUse with ⟨p, toned⟩ | member
    · refine .inl ⟨p, ?_⟩
      have carried := consistent.tone p chn toned
      simp only [Clients.clrPinFunc]
      rw [if_neg (by omega)]
      exact toned
    · exact .inr member
  · intro first second same left
    obtain ⟨leftPin, leftUsed⟩ := used first left
    obtain ⟨rightPin, rightUsed⟩ := used second (same ▸ left)
    rw [kept first leftPin, kept second rightPin] at same
    exact consistent.distinct first second same leftUsed
  · intro index flagged
    obtain ⟨chn, member, named⟩ := consistent.held index flagged
    exact ⟨chn, member, by rw [kept chn (ticking chn member)]; exact named⟩
  · intro p chn toned
    simp only [Clients.clrPinFunc] at toned
    split at toned
    next => cases toned
    next => exact consistent.apart p chn toned
  · exact consistent.nodup

/-- A channel handed to a Ticker was free, and its row now carries a placeholder
that was not in use. -/
theorem Consistent.getFreeChn_returns (consistent : Consistent clients) (separate : Separate .getFreeChn clients) :
    (clients.map.halTimerGetFreeChn = (none, clients.map) ∧ ∀ chn, clients.map.pin chn ≠ -1) ∨
      ∃ index chn, clients.map.placeHolder index = false ∧ (∀ i, clients.map.pin i ≠ placeHolderPin index) ∧
        clients.map.pin chn = -1 ∧ clients.map.halTimerGetFreeChn =
          (some chn, (clients.map.setPlaceHolder index true).setPin chn (placeHolderPin index)) := by
  unfold ChannelMap.halTimerGetFreeChn
  split
  next missing =>
    refine .inl ⟨rfl, fun chn free => ?_⟩
    obtain ⟨index, first⟩ := consistent.placeHolder_left free
    rw [missing] at first
    cases first
  next index first =>
    have absent := separate index first
    split
    next chn found =>
      rcases ChannelMap.getFreeTimerChn_some found with carried | ⟨_, free⟩
      · exact absurd carried (absent chn)
      · exact .inr ⟨index, chn, ChannelMap.firstPlaceHolder_some first, absent, free, rfl⟩
    next missing => exact .inl ⟨rfl, ChannelMap.getFreeTimerChn_none missing⟩

theorem getFreeChn_lowest {chn : Fin 12} (separate : Separate .getFreeChn clients)
    (handed : clients.map.halTimerGetFreeChn.1 = some chn) (lower : Fin 12) (below : lower < chn) :
    clients.map.pin lower ≠ -1 := by
  unfold ChannelMap.halTimerGetFreeChn at handed
  split at handed
  next => cases handed
  next index first =>
    split at handed
    next found =>
      cases handed
      exact ChannelMap.getFreeTimerChn_lowest found (separate index first) lower below
    next => cases handed

theorem Consistent.separate_untoned (consistent : Consistent clients) (silent : ∀ pin, clients.tone pin = none) :
    Separate .getFreeChn clients := by
  intro index first chn carried
  have used : clients.map.pin chn ≠ -1 := by
    rw [carried]
    exact ChannelMap.placeHolderPin_ne_free index
  rcases consistent.owned chn used with ⟨pin, toned⟩ | ticking
  · rw [silent pin] at toned
    cases toned
  · obtain ⟨other, named, flagged⟩ := consistent.ticker chn ticking
    rw [← ChannelMap.placeHolderPin_injective (carried.symm.trans named), ChannelMap.firstPlaceHolder_some first] at flagged
    cases flagged

theorem Consistent.getFreeChn (consistent : Consistent clients) (separate : Separate .getFreeChn clients) :
    Consistent clients.getFreeChn := by
  rcases consistent.getFreeChn_returns separate with ⟨refused, _⟩ | ⟨index, chn, unused, absent, free, taken⟩
  · have same : clients.getFreeChn = clients := by simp [Clients.getFreeChn, refused]
    rw [same]
    exact consistent
  · have row : clients.getFreeChn.map.pin = fun i => if i = chn then placeHolderPin index else clients.map.pin i := by
      simp [Clients.getFreeChn, taken, ChannelMap.setPin, ChannelMap.setPlaceHolder]
    have flags : clients.getFreeChn.map.placeHolder =
        fun i => if i = index then true else clients.map.placeHolder i := by
      simp [Clients.getFreeChn, taken, ChannelMap.setPin, ChannelMap.setPlaceHolder]
    have tickers : clients.getFreeChn.tickers = chn :: clients.tickers := by simp [Clients.getFreeChn, taken]
    have unheld := (consistent.free_iff chn).mpr free
    constructor
    · intro pin i toned
      have carried := consistent.tone pin i toned
      have different : i ≠ chn := fun same => unheld.1 pin (same ▸ toned)
      simp only [row, if_neg different]
      exact carried
    · intro i member
      rw [tickers] at member
      simp only [row, flags]
      rcases List.mem_cons.mp member with rfl | older
      · exact ⟨index, by simp, by simp⟩
      · obtain ⟨other, named, flagged⟩ := consistent.ticker i older
        have different : i ≠ chn := fun same => unheld.2 (same ▸ older)
        exact ⟨other, by rw [if_neg different]; exact named, by simp [flagged]⟩
    · intro i used
      simp only [row] at used
      rw [tickers]
      by_cases same : i = chn
      · exact .inr (by simp [same])
      · rw [if_neg same] at used
        rcases consistent.owned i used with toned | member
        · exact .inl toned
        · exact .inr (List.mem_cons_of_mem _ member)
    · rw [row]
      exact ChannelMap.distinct_update consistent.distinct fun i carried => absurd carried (absent i)
    · intro other flagged
      rw [tickers]
      simp only [flags] at flagged
      simp only [row]
      by_cases same : other = index
      · exact ⟨chn, by simp, by simp [same]⟩
      · rw [if_neg same] at flagged
        obtain ⟨i, member, named⟩ := consistent.held other flagged
        have different : i ≠ chn := fun this => unheld.2 (this ▸ member)
        exact ⟨i, List.mem_cons_of_mem _ member, by rw [if_neg different]; exact named⟩
    · intro pin i toned
      rw [tickers]
      intro member
      rcases List.mem_cons.mp member with rfl | older
      · exact unheld.1 pin toned
      · exact consistent.apart pin i toned older
    · rw [tickers]
      exact List.nodup_cons.mpr ⟨unheld.2, consistent.nodup⟩

/-- Releasing a held channel frees its row and its placeholder, and nothing else. -/
theorem Consistent.release_eq (consistent : Consistent clients) {chn : Fin 12} (member : chn ∈ clients.tickers) :
    ∃ index, clients.map.pin chn = placeHolderPin index ∧ clients.map.placeHolder index = true ∧
      clients.map.halTimerReleaseChn chn = (clients.map.setPin chn (-1)).setPlaceHolder index false := by
  obtain ⟨index, named, flagged⟩ := consistent.ticker chn member
  refine ⟨index, named, flagged, ?_⟩
  have row : Fin.find? (fun i => decide (clients.map.pin chn = clients.map.pin i)) = some chn := by
    apply Fin.find?_eq_some_iff.mpr
    refine ⟨decide_eq_true rfl, fun other earlier => ?_⟩
    apply decide_eq_false
    intro same
    have used : clients.map.pin chn ≠ -1 := by rw [named]; exact ChannelMap.placeHolderPin_ne_free index
    exact Fin.ne_of_gt earlier (consistent.distinct chn other same used)
  have flag : Fin.find? (fun i => decide (clients.map.pin chn = placeHolderPin i)) = some index := by
    apply Fin.find?_eq_some_iff.mpr
    refine ⟨decide_eq_true named, fun other earlier => ?_⟩
    apply decide_eq_false
    intro same
    exact Fin.ne_of_gt earlier (ChannelMap.placeHolderPin_injective (named.symm.trans same))
  unfold ChannelMap.halTimerReleaseChn
  extract_lets releasedPin freed
  rw [flag]
  change freed.setPlaceHolder index false = _
  have emptied : freed = clients.map.setPin chn (-1) := by
    unfold freed
    rw [row]
  rw [emptied]

theorem Consistent.releaseChn (consistent : Consistent clients) {chn : Fin 12} (member : chn ∈ clients.tickers) :
    Consistent (clients.releaseChn chn) := by
  obtain ⟨index, named, flagged, released⟩ := consistent.release_eq member
  have row : (clients.releaseChn chn).map.pin = fun i => if i = chn then -1 else clients.map.pin i := by
    simp [Clients.releaseChn, released, ChannelMap.setPin, ChannelMap.setPlaceHolder]
  have flags : (clients.releaseChn chn).map.placeHolder =
      fun i => if i = index then false else clients.map.placeHolder i := by
    simp [Clients.releaseChn, released, ChannelMap.setPin, ChannelMap.setPlaceHolder]
  have remaining : ∀ i, i ∈ (clients.releaseChn chn).tickers ↔ i ≠ chn ∧ i ∈ clients.tickers :=
    fun i => consistent.nodup.mem_erase_iff
  have used : ∀ i, (clients.releaseChn chn).map.pin i ≠ -1 → i ≠ chn ∧ clients.map.pin i ≠ -1 := by
    intro i left
    simp only [row] at left
    by_cases same : i = chn
    · rw [if_pos same] at left
      exact absurd rfl left
    · rw [if_neg same] at left
      exact ⟨same, left⟩
  constructor
  · intro pin i toned
    have different : i ≠ chn := fun same => consistent.apart pin i toned (same ▸ member)
    simp only [row, if_neg different]
    exact consistent.tone pin i toned
  · intro i left
    obtain ⟨different, held⟩ := (remaining i).mp left
    obtain ⟨other, carried, inUse⟩ := consistent.ticker i held
    have apart : other ≠ index := by
      intro same
      subst same
      exact different (consistent.distinct i chn (carried.trans named.symm)
        (by rw [carried]; exact ChannelMap.placeHolderPin_ne_free other))
    simp only [row, flags, if_neg different]
    exact ⟨other, carried, by rw [if_neg apart]; exact inUse⟩
  · intro i left
    obtain ⟨different, inUse⟩ := used i left
    rcases consistent.owned i inUse with toned | held
    · exact .inl toned
    · exact .inr ((remaining i).mpr ⟨different, held⟩)
  · intro first second same left
    obtain ⟨leftOther, leftUsed⟩ := used first left
    obtain ⟨rightOther, _⟩ := used second (same ▸ left)
    simp only [row, if_neg leftOther, if_neg rightOther] at same
    exact consistent.distinct first second same leftUsed
  · intro other inUse
    simp only [flags] at inUse
    split at inUse
    next => cases inUse
    next apart =>
      obtain ⟨i, held, carried⟩ := consistent.held other inUse
      have different : i ≠ chn := by
        intro same
        subst same
        exact apart (ChannelMap.placeHolderPin_injective (carried.symm.trans named))
      exact ⟨i, (remaining i).mpr ⟨different, held⟩, by simp only [row, if_neg different]; exact carried⟩
  · intro pin i toned left
    exact consistent.apart pin i toned ((remaining i).mp left).2
  · exact consistent.nodup.erase chn

/-- One call that is legal and keeps the two number ranges apart keeps the table
in step with its clients. -/
theorem perform_consistent (op : Op) (clients : Clients) (consistent : Consistent clients)
    (ok : Legal op clients ∧ Separate op clients) : Consistent (perform op clients) := by
  cases op with
  | setPinFunc pin => exact consistent.setPinFunc pin ok.2
  | clrPinFunc pin => exact consistent.clrPinFunc pin ok.2
  | getFreeChn => exact consistent.getFreeChn ok.2
  | releaseChn chn => exact consistent.releaseChn ok.1

private theorem setPinFunc_promise_iff (consistent : Consistent clients) (pin : Fin 48) :
    Promise clients (.setPinFunc pin) ↔ Separate (.setPinFunc pin) clients := by
  constructor
  · intro promise index flagged same
    obtain ⟨holder, ticking, named⟩ := consistent.held index flagged
    obtain ⟨chn, found, carried⟩ := ChannelMap.getFreeTimerChn_assigned (named.trans same.symm)
    have handed := congrArg Prod.fst (ChannelMap.halTimerSetPinFunc_found found)
    have used : clients.map.pin chn ≠ -1 := by
      rw [carried]
      omega
    have here := consistent.distinct chn holder (carried.trans (same.trans named.symm)) used
    exact (promise chn handed).2 (here ▸ ticking)
  · intro separate chn handed
    cases found : clients.map.getFreeTimerChn pin with
    | none =>
      rw [ChannelMap.halTimerSetPinFunc_missing found] at handed
      cases handed
    | some index =>
      rw [ChannelMap.halTimerSetPinFunc_found found] at handed
      cases handed
      obtain ⟨outside, others, _⟩ := consistent.setPinFunc_alone pin separate found
      exact ⟨others, outside⟩

private theorem clrPinFunc_promise_iff (consistent : Consistent clients) (pin : Fin 48) :
    Promise clients (.clrPinFunc pin) ↔ Separate (.clrPinFunc pin) clients := by
  constructor
  · intro promise index flagged same
    obtain ⟨holder, ticking, named⟩ := consistent.held index flagged
    have kept := promise holder ticking
    simp only [ChannelMap.halTimerClrPinFunc, if_pos (same.trans named.symm)] at kept
    exact ChannelMap.placeHolderPin_ne_free index (named.symm.trans kept.symm)
  · intro separate chn ticking
    obtain ⟨index, named, flagged⟩ := consistent.ticker chn ticking
    have different : (pin.val : Int) ≠ clients.map.pin chn := named ▸ separate index flagged
    simp only [ChannelMap.halTimerClrPinFunc, if_neg different]

private theorem getFreeChn_promise_iff (consistent : Consistent clients) :
    Promise clients .getFreeChn ↔ Separate .getFreeChn clients := by
  constructor
  · intro promise index first chn carried
    obtain ⟨found, assigned, here⟩ := ChannelMap.getFreeTimerChn_assigned carried
    have handed : clients.map.halTimerGetFreeChn.1 = some found := by
      unfold ChannelMap.halTimerGetFreeChn
      split
      next missing => cases missing.symm.trans first
      next again =>
        cases first.symm.trans again
        split
        next got => rw [← assigned, got]
        next missing => cases missing.symm.trans assigned
    have free := (consistent.free_iff found).mp (promise.1 found handed)
    exact ChannelMap.placeHolderPin_ne_free index (here.symm.trans free)
  · intro separate
    rcases consistent.getFreeChn_returns separate with ⟨refused, full⟩ | ⟨index, chn, _, _, free, taken⟩
    · constructor
      · intro chn handed
        rw [refused] at handed
        cases handed
      · intro found
        obtain ⟨chn, free⟩ := found
        exact absurd ((consistent.free_iff chn).mp free) (full chn)
    · constructor
      · intro handed same
        rw [taken] at same
        cases same
        exact (consistent.free_iff chn).mpr free
      · intro _
        rw [taken]
        rfl

private theorem promise_iff (consistent : Consistent clients) (op : Op) (legal : Legal op clients) :
    Promise clients op ↔ Separate op clients := by
  cases op with
  | setPinFunc pin => exact setPinFunc_promise_iff consistent pin
  | clrPinFunc pin => exact clrPinFunc_promise_iff consistent pin
  | getFreeChn => exact getFreeChn_promise_iff consistent
  | releaseChn chn =>
    obtain ⟨index, named, _, released⟩ := consistent.release_eq legal
    exact ⟨fun _ => trivial, fun _ => ⟨index, named, released⟩⟩

/-- In every run that keeps Tone pins apart from the placeholders in use, each
channel has one owner, and the next call keeps its promise exactly when it keeps
them apart too. -/
theorem channel_ownership (fpioa : Gpio.Fpioa) (ops : List Op)
    (guarded : Run.Guarded perform (fun op clients => Legal op clients ∧ Separate op clients) ops (initial fpioa)) :
    OneOwner (Run.run perform ops (initial fpioa)) ∧
      ∀ op, Legal op (Run.run perform ops (initial fpioa)) →
        (Promise (Run.run perform ops (initial fpioa)) op ↔ Separate op (Run.run perform ops (initial fpioa))) := by
  have consistent := guarded.invariant perform_consistent (initial_consistent fpioa)
  exact ⟨consistent.oneOwner, promise_iff consistent⟩

/-- A Tone on pin 5 and two Tickers, the first of which is released. -/
theorem channel_ownership_tone_and_tickers :
    OneOwner (Run.run perform [.setPinFunc 5, .getFreeChn, .getFreeChn, .releaseChn 1]
      (initial ⟨fun _ => 0, fun _ => 0⟩)) := by
  refine (channel_ownership ⟨fun _ => 0, fun _ => 0⟩ [.setPinFunc 5, .getFreeChn, .getFreeChn, .releaseChn 1] ?_).1
  refine ⟨⟨trivial, ?_⟩, ⟨trivial, ?_⟩, ⟨trivial, ?_⟩, ⟨?_, trivial⟩, trivial⟩
  · decide
  · decide
  · decide
  · decide

/-- A Tone on pin 42 and then a Ticker: the Ticker's placeholder is number 42 too,
and it is given the Tone's channel. -/
theorem getFreeChn_takes_tone_channel :
    ¬OneOwner (Run.run perform [.setPinFunc 42, .getFreeChn] (initial ⟨fun _ => 0, fun _ => 0⟩)) := by
  intro owner
  exact owner.apart 42 0 (by decide) (by decide)

end Clients
end ArduinoK210.Timer
