import ArduinoK210.Spi.Transfer

/-! Every transfer comes to its end when both the task and the wire go on moving. -/

namespace ArduinoK210.Spi

variable {call : Transfer} {slave : List UInt8 → UInt8} {mem : Nat → UInt8} {state : TransferState}

/-- The places where frames are under way. -/
def TransferPc.Loops : TransferPc → Prop
  | .outer | .inner | .push | .drain | .pop => True
  | _ => False

theorem Tracked.flow (tracked : Tracked call slave mem state) (loops : state.pc.Loops) :
    ∃ ended begun, Flow call slave mem state ended begun := by
  obtain ⟨pc, sent, received, memory, port⟩ := state
  cases pc with
  | outer => exact tracked.2
  | drain => exact tracked.2
  | inner => exact tracked.2.2
  | push => exact tracked.2.2
  | pop =>
    obtain ⟨_, ended, begun, _, flow⟩ := tracked
    exact ⟨ended, begun, flow⟩
  | _ => exact absurd loops id

private theorem Tracked.loops (tracked : Tracked call slave mem state) (movable : state.port.movable = true) : state.pc.Loops := by
  obtain ⟨pc, sent, received, memory, port⟩ := state
  have unselected (selected : port.selected = false) : False := by
    rw [FifoPort.movable, selected] at movable
    cases movable
  have idle (flow : Flow call slave mem ⟨pc, sent, received, memory, port⟩ call.size call.size) : False := by
    have bounds := flow.sent
    have possible := flow.movable_iff.mp movable
    omega
  cases pc with
  | enter => exact unselected tracked.unselected
  | disable => exact unselected tracked.2.unselected
  | duplex => exact unselected tracked.2.1.unselected
  | frames => exact unselected tracked.2.1.unselected
  | enable => exact unselected tracked.2.1.unselected
  | select =>
    have empty : port.Empty := tracked.2.2.1
    rw [FifoPort.movable, FifoPort.busy, empty.1, empty.2.1] at movable
    simp at movable
  | busy => exact idle tracked.2.2
  | deselect => exact idle tracked.2.2
  | stop => exact unselected tracked.2.selected
  | done =>
    apply unselected
    rw [FifoPort.selected, tracked.off]
    rfl
  | _ => trivial

private theorem rank_loops (call : Transfer) (state : TransferState) (loops : state.pc.Loops) :
    rank call state = 32 * (4 * call.size - moves state) + if state.port.movable then 0 else distance call state := by
  obtain ⟨pc, sent, received, memory, port⟩ := state
  cases pc <;> first | rfl | exact absurd loops id

private theorem distance_le (call : Transfer) (state : TransferState) : distance call state ≤ 6 := by
  unfold distance
  split
  · split
    · omega
    · split <;> omega
  · split <;> omega
  · split
    · omega
    · split <;> omega
  · omega

/-- A frame that moves outweighs every detour of the task. -/
theorem rank_lt_of_moves {next : TransferState} (loops : state.pc.Loops) (loops' : next.pc.Loops)
    (further : moves next = moves state + 1) (most : moves next ≤ 4 * call.size) : rank call next < rank call state := by
  have far := distance_le call next
  rw [rank_loops call state loops, rank_loops call next loops', further]
  split <;> omega

private theorem wire_helps (tracked : Tracked call slave mem state) (movable : state.port.movable = true) :
    rank call (call.step slave .wire state) < rank call state := by
  have loops := tracked.loops movable
  obtain ⟨ended, begun, flow⟩ := tracked.flow loops
  obtain ⟨_, _, _, moved, further⟩ := flow.wire
  exact rank_lt_of_moves loops loops (further movable) moved.moves_le

private theorem wire_still (idle : state.port.movable = false) :
    call.step slave .wire state = state := by
  have same : state.port.move slave = state.port := by
    rw [FifoPort.movable, Bool.and_eq_false_iff] at idle
    rcases idle with unselected | free
    · exact FifoPort.move_unselected unselected
    · rw [FifoPort.busy, Bool.or_eq_false_iff, Bool.not_eq_false', List.isEmpty_iff, Option.isSome_eq_false_iff,
        Option.isNone_iff_eq_none] at free
      rw [FifoPort.move, free.1, free.2]
      split <;> rfl
  rw [Transfer.step, same]

/-- With nothing on the wire, the frames that are outstanding have all come in. -/
theorem Flow.arrived {ended begun : Nat} (flow : Flow call slave mem state ended begun) (idle : state.port.movable = false) :
    state.port.tx.length = 0 ∧ state.port.rx.length = state.sent - state.received := by
  have still : ¬(ended < begun ∨ begun < state.sent) := by
    rw [← flow.movable_iff, idle]
    exact Bool.false_ne_true
  have overlap := flow.overlap
  have bounds := flow.sent
  rw [flow.tx_length, flow.rx_length]
  omega

section Loop

variable {ended begun : Nat}

/-- The task gets a frame further or nearer to where it can, or the wire can move and what it moves is untouched. -/
def GetsOn (call : Transfer) (slave : List UInt8 → UInt8) (state : TransferState) : Prop :=
  rank call (call.step slave .task state) < rank call state ∨
    rank call (call.step slave .task state) = rank call state ∧ state.port.movable = true ∧
      (call.step slave .task state).port = state.port

theorem getsOn_detour {pc : TransferPc} (step : call.step slave .task state = { state with pc }) (loops : state.pc.Loops)
    (loops' : pc.Loops) (nearer : state.port.movable = false → distance call { state with pc } < distance call state) : GetsOn call slave state := by
  have next : rank call { state with pc } =
      32 * (4 * call.size - moves state) + if state.port.movable then 0 else distance call { state with pc } :=
    rank_loops call { state with pc } loops'
  rw [GetsOn, step, next, rank_loops call state loops]
  cases idle : state.port.movable with
  | true => exact .inr ⟨rfl, rfl, rfl⟩
  | false =>
    left
    have shorter := nearer idle
    simp only [Bool.false_eq_true, if_false]
    omega

/-- When everything has been received the loop is left, and nothing is on the wire. -/
theorem outer_getsOn (here : state.pc = .outer) (flow : Flow call slave mem state ended begun) : GetsOn call slave state := by
  obtain ⟨pc, sent, received, memory, port⟩ := state
  cases here
  have most : sent ≤ call.size := flow.sent.2
  have stored : received ≤ ended := flow.stored
  have overlap := flow.overlap
  have bounds : begun ≤ sent ∧ sent ≤ call.size := flow.sent
  by_cases more : received < call.size
  · have step : call.step slave .task ⟨.outer, sent, received, memory, port⟩ = ⟨.inner, sent, received, memory, port⟩ := by
      simp only [Transfer.step, Transfer.proceed, if_pos more]
    apply getsOn_detour step trivial trivial
    intro _
    have unfinished : received ≠ call.size := Nat.ne_of_lt more
    simp only [distance, if_neg unfinished]
    split <;> omega
  · have step : call.step slave .task ⟨.outer, sent, received, memory, port⟩ = ⟨.busy, sent, received, memory, port⟩ := by
      simp only [Transfer.step, Transfer.proceed, if_neg more]
    have all : received = call.size := by omega
    have still : port.movable = false := by
      rw [← Bool.not_eq_true]
      intro movable
      have possible : ended < begun ∨ begun < sent := flow.movable_iff.mp movable
      omega
    have before := rank_loops call ⟨.outer, sent, received, memory, port⟩ trivial
    simp only [still, distance, if_pos all, Bool.false_eq_true, if_false] at before
    left
    rw [step, before]
    exact Nat.lt_of_lt_of_le (Nat.lt_succ_self 4) (Nat.le_add_left _ _)

private theorem inner_getsOn (here : state.pc = .inner) (more : state.received < call.size)
    (flow : Flow call slave mem state ended begun) : GetsOn call slave state := by
  have arrived := flow.arrived
  obtain ⟨pc, sent, received, memory, port⟩ := state
  cases here
  by_cases allowed : sent < call.size ∧ sent - received < 32 ∧ port.tx.length < 32
  · have step : call.step slave .task ⟨.inner, sent, received, memory, port⟩ = ⟨.push, sent, received, memory, port⟩ := by
      simp only [Transfer.step, Transfer.proceed, if_pos allowed]
    apply getsOn_detour step trivial trivial
    intro _
    simp only [distance]
    split <;> omega
  · have step : call.step slave .task ⟨.inner, sent, received, memory, port⟩ = ⟨.drain, sent, received, memory, port⟩ := by
      simp only [Transfer.step, Transfer.proceed, if_neg allowed]
    apply getsOn_detour step trivial trivial
    intro idle
    have room : port.tx.length = 0 ∧ port.rx.length = sent - received := arrived idle
    replace more : received < call.size := more
    have unfinished : received ≠ call.size := Nat.ne_of_lt more
    have outstanding : received < sent := by omega
    simp only [distance, if_neg unfinished, if_pos outstanding]
    omega

private theorem push_getsOn (apart : call.Apart) (here : state.pc = .push) (left : state.sent < call.size)
    (window : state.sent - state.received < 32) (flow : Flow call slave mem state ended begun) : GetsOn call slave state := by
  obtain ⟨pc, sent, received, memory, port⟩ := state
  cases here
  have further := flow.push apart left window
  refine .inl (rank_lt_of_moves trivial ?_ (further.moves_eq.trans ?_) further.moves_le)
  · trivial
  · rw [flow.moves_eq]
    show sent + 1 + begun + ended + received = sent + begun + ended + received + 1
    omega

private theorem drain_getsOn (here : state.pc = .drain) (flow : Flow call slave mem state ended begun) : GetsOn call slave state := by
  have arrived := flow.arrived
  obtain ⟨pc, sent, received, memory, port⟩ := state
  cases here
  by_cases some : received < sent ∧ port.rx.length ≠ 0
  · have step : call.step slave .task ⟨.drain, sent, received, memory, port⟩ = ⟨.pop, sent, received, memory, port⟩ := by
      simp only [Transfer.step, Transfer.proceed, if_pos some]
    apply getsOn_detour step trivial trivial
    intro _
    simp only [distance]
    split
    · omega
    · split <;> omega
  · have step : call.step slave .task ⟨.drain, sent, received, memory, port⟩ = ⟨.outer, sent, received, memory, port⟩ := by
      simp only [Transfer.step, Transfer.proceed, if_neg some]
    apply getsOn_detour step trivial trivial
    intro idle
    have filled : port.tx.length = 0 ∧ port.rx.length = sent - received := arrived idle
    have drained : ¬received < sent := by omega
    simp only [distance, if_neg drained]
    split <;> omega

private theorem pop_getsOn (here : state.pc = .pop) (some : state.received < ended) (flow : Flow call slave mem state ended begun) :
    GetsOn call slave state := by
  obtain ⟨pc, sent, received, memory, port⟩ := state
  cases here
  replace some : received < ended := some
  have filled : port.rx.length ≠ 0 := by
    have length : port.rx.length = ended - received := flow.rx_length
    omega
  have further := flow.pop filled
  refine .inl (rank_lt_of_moves trivial ?_ (further.moves_eq.trans ?_) further.moves_le)
  · trivial
  · rw [flow.moves_eq]
    show sent + begun + ended + (received + 1) = sent + begun + ended + received + 1
    omega

end Loop

/-- The task in its loop gets a frame further, or one step nearer to where it can. -/
theorem task_loops (apart : call.Apart) (tracked : Tracked call slave mem state) (loops : state.pc.Loops) :
    GetsOn call slave state := by
  obtain ⟨pc, sent, received, memory, port⟩ := state
  cases pc with
  | outer =>
    obtain ⟨_, ended, begun, flow⟩ := tracked
    exact outer_getsOn rfl flow
  | inner =>
    obtain ⟨_, more, ended, begun, flow⟩ := tracked
    exact inner_getsOn rfl more flow
  | push =>
    obtain ⟨_, ⟨left, window⟩, ended, begun, flow⟩ := tracked
    exact push_getsOn apart rfl left window flow
  | drain =>
    obtain ⟨_, ended, begun, flow⟩ := tracked
    exact drain_getsOn rfl flow
  | pop =>
    obtain ⟨_, ended, begun, some, flow⟩ := tracked
    exact pop_getsOn rfl some flow
  | _ => exact absurd loops id

/-- Before and after the loop the task always gets on. -/
theorem task_straight (tracked : Tracked call slave mem state) (straight : ¬state.pc.Loops) (unfinished : state.pc ≠ .done) :
    rank call (call.step slave .task state) < rank call state := by
  obtain ⟨pc, sent, received, memory, port⟩ := state
  cases pc with
  | enter =>
    show rank call ⟨if call.Runs then .disable else .done, sent, received, memory, port⟩ < 128 * call.size + 36
    split
    next => exact Nat.lt_succ_self _
    next => exact Nat.succ_pos _
  | select =>
    have far := distance_le call (call.step slave .task ⟨.select, sent, received, memory, port⟩)
    rw [rank_loops call (call.step slave .task ⟨.select, sent, received, memory, port⟩) trivial]
    show _ < 128 * call.size + 31
    split <;> omega
  | busy =>
    have flow := tracked.2.2
    have idle : port.busy = false := by
      have shift : port.shift = none := flow.shift.trans (if_neg (Nat.lt_irrefl _))
      have tx : port.tx.length = sent - call.size := flow.tx_length
      have bounds : sent ≤ call.size := flow.sent.2
      rw [FifoPort.busy, shift, List.eq_nil_of_length_eq_zero (tx.trans (Nat.sub_eq_zero_of_le bounds))]
      rfl
    have step : call.step slave .task ⟨.busy, sent, received, memory, port⟩ = ⟨.deselect, sent, received, memory, port⟩ := by
      simp only [Transfer.step, Transfer.proceed, idle, Bool.false_eq_true, if_false]
    rw [step]
    exact Nat.lt_succ_self 3
  | disable => exact Nat.lt_succ_self (128 * call.size + 34)
  | duplex => exact Nat.lt_succ_self (128 * call.size + 33)
  | frames => exact Nat.lt_succ_self (128 * call.size + 32)
  | enable => exact Nat.lt_succ_self (128 * call.size + 31)
  | deselect => exact Nat.lt_succ_self 2
  | stop => exact Nat.succ_pos 1
  | done => exact absurd rfl unfinished
  | _ => exact absurd trivial straight

theorem progress (apart : call.Apart) :
    Fair.Progress (call.step slave) (Tracked call slave mem) (fun state => state.pc = .done) (rank call) helper where
  preserves mover state tracked :=
    match mover with
    | .task => tracked_task apart tracked
    | .wire => tracked_wire tracked
  helps state tracked unfinished := by
    unfold helper
    split
    next movable => exact wire_helps tracked movable
    next idle =>
      by_cases loops : state.pc.Loops
      · rcases task_loops apart tracked loops with less | ⟨_, movable, _⟩
        · exact less
        · exact absurd movable idle
      · exact task_straight tracked loops unfinished
  keeps mover state tracked unfinished := by
    cases mover with
    | wire =>
      cases movable : state.port.movable with
      | true => exact .inl (wire_helps tracked movable)
      | false => exact .inr (by rw [wire_still movable]; exact ⟨rfl, rfl⟩)
    | task =>
      by_cases loops : state.pc.Loops
      · rcases task_loops apart tracked loops with less | ⟨same, _, port⟩
        · exact .inl less
        · exact .inr ⟨same, by rw [helper, port, helper]⟩
      · exact .inl (task_straight tracked loops unfinished)

private theorem done_still (tracked : Tracked call slave mem state) (done : state.pc = .done) (mover : Mover) :
    call.step slave mover state = state := by
  cases mover with
  | task =>
    show call.proceed state = state
    rw [Transfer.proceed, done]
  | wire =>
    apply wire_still
    rw [← Bool.not_eq_true]
    intro movable
    have loops := tracked.loops movable
    rw [done] at loops
    exact loops

theorem start_tracked (call : Transfer) (slave : List UInt8 → UInt8) {port : FifoPort} (off : port.ssienr = false)
    (mem : Nat → UInt8) : Tracked call slave mem (Transfer.start port mem) :=
  ⟨⟨rfl, rfl, rfl, rfl⟩, off, rfl⟩

/-- On every schedule that leaves neither the task nor the wire out, a call comes to its end and stays there. -/
theorem transfer_finishes (apart : call.Apart) (slave : List UInt8 → UInt8) {port : FifoPort} (off : port.ssienr = false)
    (mem : Nat → UInt8) {schedule : Nat → Mover}
    (everyone : Fair.Everyone schedule) :
    ∃ time, ∀ later, time ≤ later →
      (Fair.after (call.step slave) schedule (Transfer.start port mem) later).pc = .done ∧
        Finished call slave mem (Fair.after (call.step slave) schedule (Transfer.start port mem) later) := by
  have initial := start_tracked call slave off mem
  obtain ⟨time, done⟩ := (progress apart).reaches everyone initial
  have tracked := Fair.invariant (progress apart).preserves schedule initial time
  refine ⟨time, fun later order => ?_⟩
  rw [Fair.stays (done_still tracked done) order]
  refine ⟨done, ?_⟩
  unfold Tracked at tracked
  rw [done] at tracked
  exact tracked

end ArduinoK210.Spi
