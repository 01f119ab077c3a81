import Mathlib.Data.List.Basic

/-! A synchronous serial line whose clock is high when it rests. The other end shows its next bit when the clock falls and
takes one when it rises. -/

namespace Link

/-- The other end of a line. What it shows does not change when it takes a bit. -/
structure Peer (σ : Type) where
  next : σ → σ
  shown : σ → Bool
  take : Bool → σ → σ
  held : ∀ bit state, shown (take bit state) = shown state

/-- What is on the line when its clock changes: both bits when it rises. -/
inductive Edge where
  | fall
  | rise (sent received : Bool)
  deriving DecidableEq

def Edge.rises : Edge → Bool
  | .fall => false
  | .rise _ _ => true

/-- A line with the state of its other end, and its edges so far. -/
structure Line (σ : Type) where
  clock : Bool
  data : Bool
  state : σ
  edges : List Edge

variable {σ : Type} (peer : Peer σ)

/-- What the other end gives for the bits that it is given. -/
def Peer.exchange : List Bool → σ → List Bool × σ
  | [], state => ([], state)
  | bit :: bits, state =>
      let state := peer.next state
      let rest := Peer.exchange bits (peer.take bit state)
      (peer.shown state :: rest.1, rest.2)

namespace Line

def drive (bit : Bool) (line : Line σ) : Line σ := { line with data := bit }

def toggle (line : Line σ) : Line σ :=
  if line.clock then { line with clock := false, state := peer.next line.state, edges := line.edges ++ [.fall] }
  else
    { line with
      clock := true
      state := peer.take line.data line.state
      edges := line.edges ++ [.rise line.data (peer.shown line.state)] }

def shift (bit : Bool) (line : Line σ) : Bool × Line σ :=
  let line := (line.drive bit).toggle peer
  (peer.shown line.state, line)

/-- Bits, after the clock has fallen. It falls again behind each of them, and behind the last one if `more` are to come. -/
def clockBits (more : Bool) : List Bool → Line σ → List Bool × Line σ
  | [], line => ([], line)
  | bit :: bits, line =>
      let first := line.shift peer bit
      let rest := clockBits more bits (if !bits.isEmpty || more then first.2.toggle peer else first.2)
      (first.1 :: rest.1, rest.2)

/-- Bits, from a line that rests to one that rests. -/
def exchange : List Bool → Line σ → List Bool × Line σ
  | [], line => ([], line)
  | bit :: bits, line =>
      let first := (line.toggle peer).shift peer bit
      let rest := exchange bits first.2
      (first.1 :: rest.1, rest.2)

variable {peer} {line : Line σ}

theorem exchange_append (first second : List Bool) (line : Line σ) :
    line.exchange peer (first ++ second) =
      ((line.exchange peer first).1 ++ ((line.exchange peer first).2.exchange peer second).1,
        ((line.exchange peer first).2.exchange peer second).2) := by
  induction first generalizing line with
  | nil => rfl
  | cons bit bits ih =>
    rw [List.cons_append, exchange, exchange, ih]
    rfl

theorem toggle_high (high : line.clock = true) :
    line.toggle peer = { line with clock := false, state := peer.next line.state, edges := line.edges ++ [.fall] } := if_pos high

theorem shift_low (low : line.clock = false) (bit : Bool) :
    line.shift peer bit = (peer.shown line.state,
      { clock := true, data := bit, state := peer.take bit line.state,
        edges := line.edges ++ [.rise bit (peer.shown line.state)] }) := by
  have toggled : (line.drive bit).toggle peer =
      { clock := true, data := bit, state := peer.take bit line.state,
        edges := line.edges ++ [.rise bit (peer.shown line.state)] } := if_neg (by rw [drive, low]; exact Bool.false_ne_true)
  rw [shift, toggled, peer.held]

/-- From a line that rests, one bit takes a fall and a rise. -/
theorem toggle_shift (high : line.clock = true) (bit : Bool) :
    (line.toggle peer).shift peer bit = (peer.shown (peer.next line.state),
      { clock := true, data := bit, state := peer.take bit (peer.next line.state),
        edges := line.edges ++ [.fall, .rise bit (peer.shown (peer.next line.state))] }) := by
  rw [toggle_high high, shift_low rfl, List.append_assoc]
  rfl

theorem clockBits_exchange (high : line.clock = true) (more : Bool) {bits : List Bool} (some_ : bits ≠ []) :
    (line.toggle peer).clockBits peer more bits =
      ((line.exchange peer bits).1,
        if more then (line.exchange peer bits).2.toggle peer else (line.exchange peer bits).2) := by
  induction bits generalizing line with
  | nil => exact absurd rfl some_
  | cons bit bits ih =>
    have up : ((line.toggle peer).shift peer bit).2.clock = true := by rw [toggle_shift high]
    rw [clockBits, exchange]
    dsimp only
    cases bits with
    | nil => rfl
    | cons next rest =>
      rw [List.isEmpty_cons, Bool.not_false, Bool.true_or, if_pos rfl, ih up (List.cons_ne_nil _ _)]

theorem exchange_eq (high : line.clock = true) (bits : List Bool) :
    (line.exchange peer bits).1 = (peer.exchange bits line.state).1 ∧
      (line.exchange peer bits).2.state = (peer.exchange bits line.state).2 ∧
      (line.exchange peer bits).2.clock = true ∧
      (line.exchange peer bits).2.edges =
        line.edges ++ (bits.zip (line.exchange peer bits).1).flatMap fun pair => [.fall, .rise pair.1 pair.2] := by
  induction bits generalizing line with
  | nil => exact ⟨rfl, rfl, high, (List.append_nil _).symm⟩
  | cons bit bits ih =>
    rw [exchange, toggle_shift high, Peer.exchange]
    obtain ⟨received, state, clock, edges⟩ := @ih ⟨true, bit, peer.take bit (peer.next line.state),
      line.edges ++ [.fall, .rise bit (peer.shown (peer.next line.state))]⟩ rfl
    refine ⟨congrArg (List.cons _) received, state, clock, edges.trans ?_⟩
    rw [List.append_assoc]
    rfl

theorem exchange_length (bits : List Bool) (line : Line σ) : (line.exchange peer bits).1.length = bits.length := by
  induction bits generalizing line with
  | nil => rfl
  | cons bit bits ih =>
    rw [exchange, List.length_cons, List.length_cons]
    exact congrArg (· + 1) (ih _)

theorem rises_zip (sent received : List Bool) (length : sent.length ≤ received.length) :
    ((sent.zip received).flatMap fun pair => [Edge.fall, .rise pair.1 pair.2]).countP Edge.rises = sent.length := by
  induction sent generalizing received with
  | nil => rfl
  | cons bit sent ih =>
    cases received with
    | nil => exact absurd length (Nat.not_succ_le_zero _)
    | cons other received =>
      rw [List.zip_cons_cons, List.flatMap_cons, List.countP_append, ih received (Nat.le_of_succ_le_succ length), List.length_cons,
        Nat.add_comm]
      rfl

end Line

end Link
