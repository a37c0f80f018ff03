import LambGateway.QueueServer.Routing

/-!
# Back-pressure of the scheduler

Any number of connections share the queues of the gateways. The connection of an account looks a
queue up, checks its length and pushes, in three steps; the connection of a test client looks a
queue up and pushes.
-/

namespace LambGateway.QueueServer.Backpressure

open Framework Pool Routing
open Server (Answer)

/-- The packet `Message` of a test client. -/
structure TestMessage where
  id : UInt64
  spid : Bytes
  spcode : Bytes
  phone : Bytes
  msgfmt : Int32
  length : Int32
  content : Bytes
  channel : Int32

/-- The record that `lamb_test_loop` queues. -/
def lambTestLoop (msg : TestMessage) : LambSubmit where
  id := msg.id
  account := 0
  company := 0
  spid := (strncpy msg.spid 6).widen 7 spid_le
  spcode := strncpy msg.spcode 20
  phone := (strncpy msg.phone 11).widen 20 phone_le
  msgfmt := msg.msgfmt
  content := Content.ofBytes msg.content

/-- A message in `lamb_push_loop`: the channels that are left, and the flags. -/
structure Search where
  message : LambSubmit
  rest : List LambChannel
  flags : Flags

def Search.start (message : LambSubmit) (channels : List LambChannel) : Search where
  message := message
  rest := channels
  flags := ⟨false, false, false, false⟩

inductive Stage where
  | next
  /-- The queue of the channel has been looked up. -/
  | found (q : Nat)
  /-- Its length was below 128. -/
  | checked (q : Nat)

inductive Test where
  | find (message : LambSubmit) (channel : Int32)
  | found (message : LambSubmit) (q : Nat)

inductive Handler where
  | new
  /-- `work` is the message that the connection of the account works on. -/
  | push (channels : List LambChannel) (work : Option (Search × Stage))
  | test (work : Option Test)
  /-- `lamb_pull_loop` has found no queue for the gateway. -/
  | missing (id : Int32)
  /-- The queue of a pull connection, `none` for one that is not in the pool. -/
  | pull (q : Option Nat)
  | closed

structure State where
  gateway : List (Queue LambSubmit)
  handlers : Nat → Handler
  answers : List (Nat × Answer)
  frames : List (Nat × Frame)

def State.init : State := ⟨[], fun _ => .new, [], []⟩

inductive Client where
  | push (channels : List LambChannel)
  | test
  | pull (id : Int32)

inductive Action where
  | connect (h : Nat) (client : Client)
  /-- `lamb_queue_new`, and the node for the queue. -/
  | create (h : Nat) (queue node : Bool)
  | submit (h : Nat) (packet : Submit) (record : Bool)
  | message (h : Nat) (msg : TestMessage) (record : Bool)
  /-- The next step of the connection with its message; `node` for a push that gets its node. -/
  | advance (h : Nat) (node : Bool)
  | request (h : Nat) (o : Outcome)
  | close (h : Nat)

def State.update (s : State) (h : Nat) (handler : Handler) : State :=
  { s with handlers := Function.update s.handlers h handler }

def State.reply (s : State) (h : Nat) (handler : Handler) (a : Answer) : State :=
  { s.update h handler with answers := s.answers ++ [(h, a)] }

/-- `lamb_queue_push` to the queue at an index, if its node is allocated. -/
def State.queuePush (s : State) (q : Nat) (m : LambSubmit) (node : Bool) : State :=
  { s with gateway := if node then lambQueuePush s.gateway q m else s.gateway }

def handlerOf (s : State) : Client → Handler
  | .push channels => .push channels none
  | .test => .test none
  | .pull id =>
    match lambListFind s.gateway id with
    | some q => .pull (some q)
    | none => .missing id

/-- The channel is checked and its queue is looked up. -/
def nextChannel (gateway : List (Queue LambSubmit)) (message : LambSubmit) (flags : Flags)
    (channel : LambChannel) (rest : List LambChannel) : Search × Stage :=
  let flags := { flags with available := true }
  if lambCheckOperator channel message.phone then
    let flags := { flags with operator := true }
    if lambCheckProvince channel message.phone then
      let flags := { flags with province := true }
      match lambListFind gateway channel.id with
      | some q => (⟨message, rest, flags⟩, .found q)
      | none => (⟨message, rest, flags⟩, .next)
    else (⟨message, rest, flags⟩, .next)
  else (⟨message, rest, flags⟩, .next)

/-- A step of `lamb_push_loop` with a message. -/
def pushAdvance (s : State) (h : Nat) (channels : List LambChannel) (search : Search)
    (node : Bool) : Stage → State
  | .next =>
    match search.rest with
    | [] => s.reply h (.push channels none) (answer search.flags)
    | channel :: rest =>
      s.update h
        (.push channels (some (nextChannel s.gateway search.message search.flags channel rest)))
  | .found q =>
    if hasRoom s.gateway q then
      s.update h
        (.push channels
          (some ({ search with flags := { search.flags with completed := true } }, .checked q)))
    else s.update h (.push channels (some (search, .next)))
  | .checked q =>
    (s.queuePush q search.message node).reply h (.push channels none) (answer search.flags)

/-- A step of `lamb_test_loop` with a message. -/
def testAdvance (s : State) (h : Nat) (node : Bool) : Test → State
  | .find message channel =>
    match lambListFind s.gateway channel with
    | some q => s.update h (.test (some (.found message q)))
    | none => s.reply h (.test none) .noroute
  | .found message q => (s.queuePush q message node).reply h (.test none) .ok

/-- A `LAMB_REQ`, answered from the queue of the connection. -/
def pullRequested (s : State) (h : Nat) (o : Outcome) : Option Nat → State
  | none =>
    { s with
      frames := s.frames ++ (Scheduler.lambPullLoop ⟨[], []⟩ o).sent.map fun frame => (h, frame) }
  | some q =>
    let list := (s.gateway[q]?.map Queue.list).getD []
    let served := Scheduler.lambPullLoop ⟨list, []⟩ o
    { s with
      gateway := s.gateway.modify q fun queue => { queue with list := served.queue }
      frames := s.frames ++ served.sent.map fun frame => (h, frame) }

/-- The connections of the scheduler: any number of them, in any order. -/
def step (s : State) : Action → Option State
  | .connect h client =>
    match s.handlers h with
    | .new => some (s.update h (handlerOf s client))
    | _ => none
  | .create h queue node =>
    match s.handlers h with
    | .missing id =>
      if queue then
        if node then
          some
            { s.update h (.pull (some s.gateway.length)) with
              gateway := s.gateway ++ [lambQueueNew id] }
        else some (s.update h (.pull none))
      else some (s.update h .closed)
    | _ => none
  | .submit h packet record =>
    match s.handlers h with
    | .push channels none =>
      if record then
        let search := Search.start (Scheduler.lambPushLoop packet) channels
        some (s.update h (.push channels (some (search, .next))))
      else some s
    | _ => none
  | .message h msg record =>
    match s.handlers h with
    | .test none =>
      if record then some (s.update h (.test (some (.find (lambTestLoop msg) msg.channel))))
      else some s
    | _ => none
  | .advance h node =>
    match s.handlers h with
    | .push channels (some (search, stage)) => some (pushAdvance s h channels search node stage)
    | .test (some work) => some (testAdvance s h node work)
    | _ => none
  | .request h o =>
    match s.handlers h with
    | .pull q => some (pullRequested s h o q)
    | _ => none
  | .close h =>
    match s.handlers h with
    | .push _ none => some (s.update h .closed)
    | .test none => some (s.update h .closed)
    | .pull _ => some (s.update h .closed)
    | _ => none

/-- No queue holds more than 128 messages. -/
def Bounded (s : State) : Prop := ∀ queue ∈ s.gateway, queue.list.length ≤ 128

/-- The queue that the next step of the connection pushes to. -/
def Handler.target : Handler → Option Nat
  | .push _ (some (_, .checked q)) => some q
  | .test (some (.found _ q)) => some q
  | _ => none

def State.target (s : State) : Action → Option Nat
  | .advance h true => (s.handlers h).target
  | _ => none

/-- A push finds the queue with room. -/
def FindsRoom (s : State) (a : Action) : Prop :=
  ∀ q ∈ s.target a, ∀ queue, s.gateway[q]? = some queue → queue.list.length < 128

/-! ## One step -/

theorem scheduler_queue (list : List LambSubmit) (o : Outcome) :
    (Scheduler.lambPullLoop ⟨list, []⟩ o).queue = list.tail := by
  cases list with
  | nil => exact (lambPullLoop_nil .scheduler rfl o).1
  | cons m list => exact congrArg PullState.queue (lambPullLoop_cons .scheduler rfl o)

/-- A request takes the first message of the queue. -/
theorem pullRequested_gateway (s : State) (h : Nat) (o : Outcome) (q : Nat) :
    (pullRequested s h o (some q)).gateway = Pool.lambQueuePop s.gateway q := by
  apply List.ext_getElem?
  intro i
  simp only [pullRequested, Pool.lambQueuePop, List.getElem?_modify, scheduler_queue]
  split
  · next hi =>
    rw [hi]
    cases s.gateway[i]? <;> rfl
  · rfl

/-- A step pushes to its target, or takes from a queue at most, or adds an empty one. -/
inductive Change (s : State) (a : Action) (t : State) : Prop where
  | push (q : Nat) (m : LambSubmit) (target : s.target a = some q)
      (gateway : t.gateway = lambQueuePush s.gateway q m)
  | same (target : s.target a = none) (gateway : t.gateway = s.gateway)
  | pop (q : Nat) (target : s.target a = none) (gateway : t.gateway = Pool.lambQueuePop s.gateway q)
  | create (id : Int32) (target : s.target a = none)
      (gateway : t.gateway = s.gateway ++ [lambQueueNew id])

theorem pushAdvance_change {s : State} {h : Nat} {channels : List LambChannel} {search : Search}
    {stage : Stage} (hs : s.handlers h = .push channels (some (search, stage))) (node : Bool) :
    Change s (.advance h node) (pushAdvance s h channels search node stage) := by
  have hquiet (hnone : (s.handlers h).target = none) : s.target (.advance h node) = none := by
    cases node
    · rfl
    · exact hnone
  cases stage with
  | next =>
    refine .same (hquiet (by rw [hs]; rfl)) ?_
    simp only [pushAdvance]
    split <;> rfl
  | found q =>
    refine .same (hquiet (by rw [hs]; rfl)) ?_
    simp only [pushAdvance]
    split <;> rfl
  | checked q =>
    cases node with
    | true => exact .push q search.message (by rw [State.target, hs]; rfl) rfl
    | false => exact .same rfl rfl

theorem testAdvance_change {s : State} {h : Nat} {work : Test}
    (hs : s.handlers h = .test (some work)) (node : Bool) :
    Change s (.advance h node) (testAdvance s h node work) := by
  cases work with
  | find message channel =>
    refine .same ?_ ?_
    · cases node
      · rfl
      · rw [State.target, hs]
        rfl
    · simp only [testAdvance]
      split <;> rfl
  | found message q =>
    cases node with
    | true => exact .push q message (by rw [State.target, hs]; rfl) rfl
    | false => exact .same rfl rfl

theorem step_change {s t : State} {a : Action} (ht : step s a = some t) : Change s a t := by
  cases a with
  | connect h client =>
    simp only [step] at ht
    split at ht <;> cases ht
    exact .same rfl rfl
  | create h queue node =>
    simp only [step] at ht
    (repeat' split at ht) <;> cases ht
    · next id _ _ _ => exact .create id rfl rfl
    · exact .same rfl rfl
    · exact .same rfl rfl
  | submit h packet record =>
    simp only [step] at ht
    (repeat' split at ht) <;> cases ht <;> exact .same rfl rfl
  | message h msg record =>
    simp only [step] at ht
    (repeat' split at ht) <;> cases ht <;> exact .same rfl rfl
  | advance h node =>
    simp only [step] at ht
    split at ht
    · next hs =>
      cases ht
      exact pushAdvance_change hs node
    · next hs =>
      cases ht
      exact testAdvance_change hs node
    · cases ht
  | request h o =>
    simp only [step] at ht
    split at ht
    · next q _ =>
      cases ht
      cases q with
      | none => exact .same rfl rfl
      | some q => exact .pop q rfl (pullRequested_gateway s h o q)
    · cases ht
  | close h =>
    simp only [step] at ht
    split at ht <;> cases ht <;> exact .same rfl rfl

theorem bounded_push_iff {gateway : List (Queue LambSubmit)}
    (hs : ∀ queue ∈ gateway, queue.list.length ≤ 128) (q : Nat) (m : LambSubmit) :
    (∀ queue ∈ lambQueuePush gateway q m, queue.list.length ≤ 128) ↔
      ∀ queue, gateway[q]? = some queue → queue.list.length < 128 := by
  constructor
  · intro h queue hqueue
    have hread : (lambQueuePush gateway q m)[q]? =
        some { queue with list := queue.list ++ [m] } := by
      rw [lambQueuePush, List.getElem?_modify_eq, hqueue]
      rfl
    have hlen := h _ (List.mem_of_getElem? hread)
    simp only [List.length_append, List.length_singleton] at hlen
    omega
  · intro h queue hqueue
    obtain ⟨i, hi⟩ := List.mem_iff_getElem?.mp hqueue
    rw [lambQueuePush, List.getElem?_modify] at hi
    split at hi
    · next hq =>
      obtain ⟨old, hold, rfl⟩ := Option.map_eq_some_iff.mp hi
      have hlen := h old (hq ▸ hold)
      simp only [List.length_append, List.length_singleton]
      omega
    · obtain ⟨old, hold, rfl⟩ := Option.map_eq_some_iff.mp hi
      exact hs _ (List.mem_of_getElem? hold)

theorem pop_getElem? {gateway : List (Queue LambSubmit)} {q i : Nat} {queue : Queue LambSubmit}
    (h : (Pool.lambQueuePop gateway q)[i]? = some queue) :
    ∃ old, gateway[i]? = some old ∧ queue.list.length ≤ old.list.length := by
  rw [Pool.lambQueuePop, List.getElem?_modify] at h
  obtain ⟨old, hold, rfl⟩ := Option.map_eq_some_iff.mp h
  refine ⟨old, hold, ?_⟩
  split
  · rw [List.length_tail]
    exact Nat.sub_le _ _
  · exact Nat.le_refl _

theorem bounded_pop {gateway : List (Queue LambSubmit)}
    (hs : ∀ queue ∈ gateway, queue.list.length ≤ 128) (q : Nat) :
    ∀ queue ∈ Pool.lambQueuePop gateway q, queue.list.length ≤ 128 := by
  intro queue hqueue
  obtain ⟨i, hi⟩ := List.mem_iff_getElem?.mp hqueue
  obtain ⟨old, hold, hle⟩ := pop_getElem? hi
  exact hle.trans (hs old (List.mem_of_getElem? hold))

/-- A push is due from a connection that has checked a queue, or from a test client's. -/
theorem target_eq_some {s : State} {a : Action} {q : Nat} (h : s.target a = some q) :
    ∃ k, a = .advance k true ∧
      ((∃ channels search, s.handlers k = .push channels (some (search, .checked q))) ∨
        ∃ message, s.handlers k = .test (some (.found message q))) := by
  cases a with
  | advance k node =>
    cases node with
    | true =>
      refine ⟨k, rfl, ?_⟩
      rw [State.target] at h
      unfold Handler.target at h
      split at h
      · next channels search p hs =>
        cases h
        exact .inl ⟨channels, search, hs⟩
      · next message p hs =>
        cases h
        exact .inr ⟨message, hs⟩
      · cases h
    | false => cases h
  | connect | create | submit | message | request | close => cases h

theorem step_of_target {s : State} {a : Action} {q : Nat} (h : s.target a = some q) :
    ∃ t m, step s a = some t ∧ t.gateway = lambQueuePush s.gateway q m := by
  obtain ⟨k, rfl, ⟨channels, search, hs⟩ | ⟨message, hs⟩⟩ := target_eq_some h
  · exact ⟨_, search.message, by rw [step, hs], rfl⟩
  · exact ⟨_, message, by rw [step, hs], rfl⟩

theorem bounded_step_iff {s : State} (hs : Bounded s) (a : Action) :
    (∀ t, step s a = some t → Bounded t) ↔ FindsRoom s a := by
  constructor
  · intro h q hq
    obtain ⟨t, m, ht, hgateway⟩ := step_of_target hq
    have hbounded := h t ht
    rw [Bounded, hgateway] at hbounded
    exact (bounded_push_iff hs q m).mp hbounded
  · intro hroom t ht
    rw [Bounded]
    cases step_change ht with
    | push q m target gateway =>
      rw [gateway]
      exact (bounded_push_iff hs q m).mpr (hroom q target)
    | same _ gateway =>
      rw [gateway]
      exact hs
    | pop q _ gateway =>
      rw [gateway]
      exact bounded_pop hs q
    | create id _ gateway =>
      rw [gateway]
      intro queue hqueue
      rcases List.mem_append.mp hqueue with hold | hnew
      · exact hs queue hold
      · rw [List.mem_singleton.mp hnew]
        exact Nat.zero_le 128

/-- In all states of a run no queue holds more than 128 messages, if and only if every push, of
an account as of a test client, still finds room in its queue. -/
theorem bounded_iff (as : List Action) :
    (∀ bs, bs <+: as → ∀ t, exec step State.init bs = some t → Bounded t) ↔
      Guarded step FindsRoom State.init as := by
  have hinit : Bounded State.init := by
    intro queue hqueue
    cases hqueue
  exact forall_states_iff_guarded_of_invariant (fun _ _ _ => trivial)
    (fun _ hs a => bounded_step_iff hs a) trivial hinit as

/-! ## A message without interruption -/

/-- What the loop over the channels leaves, and its answer. -/
def State.answered (s : State) (h : Nat) (channels : List LambChannel)
    (r : Flags × List (Queue LambSubmit)) : State :=
  ({ s with gateway := r.2 }).reply h (.push channels none) (answer r.1)

theorem answered_update (s : State) (h : Nat) (handler : Handler) (channels : List LambChannel)
    (r : Flags × List (Queue LambSubmit)) :
    (s.update h handler).answered h channels r = s.answered h channels r := by
  simp only [State.answered, State.reply, State.update, Function.update_idem]

section Advance

variable {s : State} {h : Nat} {channels : List LambChannel} {search : Search} (node : Bool)

theorem step_advance {stage : Stage}
    (hs : s.handlers h = .push channels (some (search, stage))) :
    step s (.advance h node) = some (pushAdvance s h channels search node stage) := by
  rw [step, hs]

theorem update_handlers (s : State) (h : Nat) (handler : Handler) :
    (s.update h handler).handlers h = handler :=
  Function.update_self ..

theorem update_update (s : State) (h : Nat) (handler handler' : Handler) :
    (s.update h handler).update h handler' = s.update h handler' := by
  simp only [State.update, Function.update_idem]

/-- A queue without room is passed over. -/
theorem advance_full {q : Nat} (hs : s.handlers h = .push channels (some (search, .found q)))
    (hroom : ¬ hasRoom s.gateway q = true) :
    step s (.advance h node) = some (s.update h (.push channels (some (search, .next)))) := by
  rw [step_advance node hs, pushAdvance, if_neg hroom]

/-- A queue with room is checked and pushed to. -/
theorem advance_found {q : Nat} (hs : s.handlers h = .push channels (some (search, .found q)))
    (hroom : hasRoom s.gateway q = true) :
    exec step s (List.replicate 2 (.advance h node)) =
      some (s.answered h channels
        ({ search.flags with completed := true },
          if node then lambQueuePush s.gateway q search.message else s.gateway)) := by
  have hchecked := update_handlers s h
    (.push channels (some ({ search with flags := { search.flags with completed := true } },
      .checked q)))
  rw [List.replicate_succ, List.replicate_one, exec_cons, step_advance node hs]
  simp only [pushAdvance, hroom, if_true, Option.bind_some]
  rw [exec_cons, step_advance node hchecked, Option.bind_some, exec_nil, ← answered_update]
  rfl

/-- The steps of a connection with a message, taken one after the other, are the loop over the
channels. -/
theorem advance_run (message : LambSubmit) (rest : List LambChannel) (flags : Flags)
    (hs : s.handlers h = .push channels (some (⟨message, rest, flags⟩, .next))) :
    ∃ n, exec step s (List.replicate n (.advance h node)) =
      some (s.answered h channels (searchChannels s.gateway message node rest flags)) := by
  induction rest generalizing flags s with
  | nil =>
    refine ⟨1, ?_⟩
    rw [List.replicate_one, exec_cons, step_advance node hs]
    rfl
  | cons channel rest ih =>
    have hfirst := step_advance node hs
    -- a channel that does not take the message leaves the rest of the loop
    have hskip (flags' : Flags) : ∃ n,
        exec step (s.update h (.push channels (some (⟨message, rest, flags'⟩, .next))))
            (List.replicate n (.advance h node)) =
          some (s.answered h channels (searchChannels s.gateway message node rest flags')) := by
      obtain ⟨n, hn⟩ := ih flags' (update_handlers s h _)
      refine ⟨n, ?_⟩
      rw [hn, answered_update]
      rfl
    simp only [pushAdvance, nextChannel] at hfirst
    cases hoperator : lambCheckOperator channel message.phone with
    | false =>
      obtain ⟨n, hn⟩ := hskip { flags with available := true }
      simp only [hoperator, Bool.false_eq_true, if_false] at hfirst
      refine ⟨n + 1, ?_⟩
      rw [List.replicate_succ, exec_cons, hfirst, Option.bind_some, hn, searchChannels]
      simp only [hoperator, Bool.false_eq_true, if_false]
    | true =>
      cases hq : lambListFind s.gateway channel.id with
      | none =>
        obtain ⟨n, hn⟩ := hskip ⟨true, true, true, flags.completed⟩
        simp only [hoperator, lambCheckProvince, hq, if_true] at hfirst
        refine ⟨n + 1, ?_⟩
        rw [List.replicate_succ, exec_cons, hfirst, Option.bind_some, hn, searchChannels]
        simp only [hoperator, lambCheckProvince, hq, if_true]
      | some q =>
        simp only [hoperator, lambCheckProvince, hq, if_true] at hfirst
        by_cases hroom : hasRoom s.gateway q = true
        · refine ⟨3, ?_⟩
          rw [List.replicate_succ, exec_cons, hfirst, Option.bind_some,
            advance_found node (update_handlers s h _) hroom, answered_update, searchChannels]
          simp only [hoperator, lambCheckProvince, hq, hroom, if_true]
          rfl
        · obtain ⟨n, hn⟩ := hskip ⟨true, true, true, flags.completed⟩
          refine ⟨n + 2, ?_⟩
          rw [List.replicate_succ, List.replicate_succ, exec_cons, hfirst, Option.bind_some,
            exec_cons, advance_full node (update_handlers s h _) hroom, Option.bind_some,
            update_update, hn, searchChannels]
          simp only [hoperator, lambCheckProvince, hq, if_neg hroom, if_true]

/-- Without interruption a `LAMB_SUBMIT` is what `lamb_push_loop` makes of it. -/
theorem submit_run (packet : Submit) (hs : s.handlers h = .push channels none) :
    ∃ n a, (Routing.lambPushLoop s.gateway channels packet true node).1 = some a ∧
      exec step s (.submit h packet true :: List.replicate n (.advance h node)) =
        some
          (({ s with
              gateway := (Routing.lambPushLoop s.gateway channels packet true node).2 }).reply h
            (.push channels none) a) := by
  let message := Scheduler.lambPushLoop packet
  have hfirst : step s (.submit h packet true) =
      some (s.update h (.push channels (some (Search.start message channels, .next)))) := by
    rw [step, hs]
    rfl
  obtain ⟨n, hn⟩ := advance_run node message channels ⟨false, false, false, false⟩
    (update_handlers s h
      (.push channels (some (⟨message, channels, ⟨false, false, false, false⟩⟩, .next))))
  refine ⟨n, _, rfl, ?_⟩
  rw [exec_cons, hfirst, Option.bind_some]
  rw [answered_update] at hn
  exact hn

end Advance

/-! ## One connection between check and push -/

def Handler.foundQueue : Handler → Option Nat
  | .push _ (some (_, .found q)) => some q
  | _ => none

def Handler.checkedQueue : Handler → Option Nat
  | .push _ (some (_, .checked q)) => some q
  | _ => none

def Action.handler : Action → Nat
  | .connect h _ => h
  | .create h _ _ => h
  | .submit h _ _ => h
  | .message h _ _ => h
  | .advance h _ => h
  | .request h _ => h
  | .close h => h

/-- A queue is checked only while no other connection stands between its check and its push, and
no test client pushes. -/
def Exclusive (s : State) : Action → Prop
  | .advance h _ =>
    (∀ q ∈ (s.handlers h).foundQueue, ∀ k, (s.handlers k).checkedQueue ≠ some q) ∧
      ∀ message q, s.handlers h ≠ .test (some (.found message q))
  | _ => True

/-- A checked queue has room, and one connection has checked it. -/
def CheckedOnce (s : State) : Prop :=
  ∀ h q, (s.handlers h).checkedQueue = some q →
    (∀ queue, s.gateway[q]? = some queue → queue.list.length < 128) ∧
      ∀ k, (s.handlers k).checkedQueue = some q → k = h

theorem nextChannel_checkedQueue (gateway : List (Queue LambSubmit)) (message : LambSubmit)
    (flags : Flags) (channel : LambChannel) (rest channels : List LambChannel) :
    (Handler.push channels
      (some (nextChannel gateway message flags channel rest))).checkedQueue = none := by
  unfold nextChannel
  (repeat' split) <;> rfl

theorem pushAdvance_handlers {s : State} {h : Nat} {channels : List LambChannel}
    {search : Search} {stage : Stage} (hs : s.handlers h = .push channels (some (search, stage)))
    (node : Bool) :
    ∃ handler, (pushAdvance s h channels search node stage).handlers =
        Function.update s.handlers h handler ∧
      (handler.checkedQueue = none ∨
        ∃ q, (s.handlers h).foundQueue = some q ∧ hasRoom s.gateway q = true ∧
          handler.checkedQueue = some q ∧
          (pushAdvance s h channels search node stage).gateway = s.gateway) := by
  cases stage with
  | next =>
    simp only [pushAdvance]
    split
    · exact ⟨_, rfl, .inl rfl⟩
    · exact ⟨_, rfl, .inl (nextChannel_checkedQueue ..)⟩
  | found q =>
    simp only [pushAdvance]
    split
    · next hroom => exact ⟨_, rfl, .inr ⟨q, by rw [hs]; rfl, hroom, rfl, rfl⟩⟩
    · exact ⟨_, rfl, .inl rfl⟩
  | checked q => exact ⟨_, rfl, .inl rfl⟩

/-- A connection comes to have checked a queue only where it finds room in it. -/
theorem step_handlers {s t : State} {a : Action} (ht : step s a = some t) :
    ∃ handler, t.handlers = Function.update s.handlers a.handler handler ∧
      (handler.checkedQueue = none ∨
        ∃ q node, a = .advance a.handler node ∧ (s.handlers a.handler).foundQueue = some q ∧
          hasRoom s.gateway q = true ∧ handler.checkedQueue = some q ∧
          t.gateway = s.gateway) := by
  have hidle {h : Nat} (hnone : (s.handlers h).checkedQueue = none) :
      ∃ handler, s.handlers = Function.update s.handlers h handler ∧
        handler.checkedQueue = none :=
    ⟨s.handlers h, (Function.update_eq_self h s.handlers).symm, hnone⟩
  cases a with
  | connect h client =>
    simp only [step] at ht
    split at ht <;> cases ht
    refine ⟨_, rfl, .inl ?_⟩
    cases client with
    | pull id =>
      simp only [handlerOf]
      split <;> rfl
    | push | test => rfl
  | create h queue node =>
    simp only [step] at ht
    (repeat' split at ht) <;> cases ht <;> exact ⟨_, rfl, .inl rfl⟩
  | submit h packet record =>
    simp only [step] at ht
    split at ht
    · next hs =>
      split at ht <;> cases ht
      · exact ⟨_, rfl, .inl rfl⟩
      · obtain ⟨handler, hsame, hnone⟩ := hidle (h := h) (by rw [hs]; rfl)
        exact ⟨handler, hsame, .inl hnone⟩
    · cases ht
  | message h msg record =>
    simp only [step] at ht
    split at ht
    · next hs =>
      split at ht <;> cases ht
      · exact ⟨_, rfl, .inl rfl⟩
      · obtain ⟨handler, hsame, hnone⟩ := hidle (h := h) (by rw [hs]; rfl)
        exact ⟨handler, hsame, .inl hnone⟩
    · cases ht
  | advance h node =>
    simp only [step] at ht
    split at ht
    · next hs =>
      cases ht
      obtain ⟨handler, hupdate, hnone | ⟨q, hfound, hroom, hchecked, hgateway⟩⟩ :=
        pushAdvance_handlers hs node
      · exact ⟨handler, hupdate, .inl hnone⟩
      · exact ⟨handler, hupdate, .inr ⟨q, node, rfl, hfound, hroom, hchecked, hgateway⟩⟩
    · next work hs =>
      cases ht
      cases work with
      | find message channel =>
        simp only [testAdvance]
        split <;> exact ⟨_, rfl, .inl rfl⟩
      | found message q => exact ⟨_, rfl, .inl rfl⟩
    · cases ht
  | request h o =>
    simp only [step] at ht
    split at ht
    · next q hs =>
      cases ht
      obtain ⟨handler, hsame, hnone⟩ := hidle (h := h) (by rw [hs]; rfl)
      refine ⟨handler, ?_, .inl hnone⟩
      cases q <;> exact hsame
    · cases ht
  | close h =>
    simp only [step] at ht
    split at ht <;> cases ht <;> exact ⟨_, rfl, .inl rfl⟩

/-- The push that is due is that of a connection that has checked the queue. -/
theorem target_of_exclusive {s : State} {a : Action} (hexclusive : Exclusive s a) {q : Nat}
    (hq : s.target a = some q) : (s.handlers a.handler).checkedQueue = some q := by
  obtain ⟨k, rfl, ⟨channels, search, hs⟩ | ⟨message, hs⟩⟩ := target_eq_some hq
  · change (s.handlers k).checkedQueue = some q
    rw [hs]
    rfl
  · exact absurd hs (hexclusive.2 message q)

theorem findsRoom_of_checkedOnce {s : State} (hs : CheckedOnce s) {a : Action}
    (hexclusive : Exclusive s a) : FindsRoom s a := by
  intro q hq
  exact (hs a.handler q (target_of_exclusive hexclusive hq)).1

/-- A queue that no step of a connection pushes to keeps its room. -/
theorem room_of_change {s t : State} {a : Action} (h : Change s a t) {q : Nat}
    (hroom : ∀ queue, s.gateway[q]? = some queue → queue.list.length < 128)
    (hother : s.target a ≠ some q) :
    ∀ queue, t.gateway[q]? = some queue → queue.list.length < 128 := by
  intro queue hqueue
  cases h with
  | push p m target gateway =>
    have hne : p ≠ q := fun he => hother (he ▸ target)
    rw [gateway, lambQueuePush, List.getElem?_modify_ne _ _ hne] at hqueue
    exact hroom queue hqueue
  | same _ gateway =>
    rw [gateway] at hqueue
    exact hroom queue hqueue
  | pop p _ gateway =>
    rw [gateway] at hqueue
    obtain ⟨old, hold, hle⟩ := pop_getElem? hqueue
    exact Nat.lt_of_le_of_lt hle (hroom old hold)
  | create id _ gateway =>
    rw [gateway, List.getElem?_append] at hqueue
    split at hqueue
    · exact hroom queue hqueue
    · rw [List.mem_singleton.mp (List.mem_of_getElem? hqueue)]
      exact Nat.zero_lt_succ 127

theorem checkedOnce_step {s t : State} {a : Action} (hs : CheckedOnce s)
    (hexclusive : Exclusive s a) (ht : step s a = some t) : CheckedOnce t := by
  obtain ⟨handler, hupdate, hkind⟩ := step_handlers ht
  -- the connections other than the one that takes the step
  have hother (k : Nat) (hk : k ≠ a.handler) : t.handlers k = s.handlers k := by
    rw [hupdate, Function.update_of_ne hk]
  have hself : t.handlers a.handler = handler := by
    rw [hupdate, Function.update_self]
  intro h q hq
  by_cases hh : h = a.handler
  · rw [hh, hself] at hq
    rcases hkind with hnone | ⟨p, node, ha, hfound, hroom, hchecked, hgateway⟩
    · rw [hnone] at hq
      cases hq
    · obtain rfl : p = q := Option.some.inj (hchecked.symm.trans hq)
      rw [ha] at hexclusive
      refine ⟨?_, ?_⟩
      · intro queue hqueue
        rw [hgateway] at hqueue
        rw [hasRoom, hqueue] at hroom
        exact of_decide_eq_true hroom
      · intro k hk
        by_contra hne
        have hka : k ≠ a.handler := fun he => hne (he.trans hh.symm)
        rw [hother k hka] at hk
        exact hexclusive.1 p hfound k hk
  · rw [hother h hh] at hq
    obtain ⟨hroom, honce⟩ := hs h q hq
    have hapart : s.target a ≠ some q := fun htarget =>
      hh (honce a.handler (target_of_exclusive hexclusive htarget)).symm
    refine ⟨room_of_change (step_change ht) hroom hapart, ?_⟩
    intro k hk
    by_cases hka : k = a.handler
    · rw [hka, hself] at hk
      rcases hkind with hnone | ⟨p, node, ha, hfound, -, hchecked, -⟩
      · rw [hnone] at hk
        cases hk
      · obtain rfl : p = q := Option.some.inj (hchecked.symm.trans hk)
        rw [ha] at hexclusive
        exact absurd hq (hexclusive.1 p hfound h)
    · rw [hother k hka] at hk
      exact honce k hk

/-- Every push finds room in a run without pushes of test clients in which no two connections
stand between the check of one queue and the push at once. -/
theorem findsRoom_of_exclusive {as : List Action} (h : Guarded step Exclusive State.init as) :
    Guarded step FindsRoom State.init as := by
  have hinit : CheckedOnce State.init := by
    intro h q hq
    cases hq
  exact guarded_of_invariant (fun _ _ _ hs hg ht => checkedOnce_step hs hg ht)
    (fun _ _ hs hg => findsRoom_of_checkedOnce hs hg) hinit h

/-! ## Where the bound fails -/

/-- `n` messages of a test client, one after the other. -/
def testRounds (h : Nat) (msg : TestMessage) : Nat → List Action
  | 0 => []
  | n + 1 => .message h msg true :: .advance h true :: .advance h true :: testRounds h msg n

/-- A test client fills a queue without a bound. -/
theorem testRounds_run (h : Nat) (msg : TestMessage) (n : Nat) {s : State}
    {list : List LambSubmit} (hgateway : s.gateway = [⟨msg.channel, list⟩])
    (hs : s.handlers h = .test none) :
    ∃ t, exec step s (testRounds h msg n) = some t ∧
      t.gateway = [⟨msg.channel, list ++ List.replicate n (lambTestLoop msg)⟩] := by
  induction n generalizing s list with
  | zero =>
    refine ⟨s, rfl, ?_⟩
    rw [hgateway, List.replicate_zero, List.append_nil]
  | succ n ih =>
    have hfind : lambListFind s.gateway msg.channel = some 0 := by
      rw [hgateway]
      simp [lambListFind]
    let s₁ := s.update h (.test (some (.find (lambTestLoop msg) msg.channel)))
    let s₂ := s₁.update h (.test (some (.found (lambTestLoop msg) 0)))
    let s₃ := (s₂.queuePush 0 (lambTestLoop msg) true).reply h (.test none) .ok
    have h₁ : step s (.message h msg true) = some s₁ := by
      rw [step, hs]
      rfl
    have h₂ : step s₁ (.advance h true) = some s₂ := by
      have hs₁ : s₁.handlers h = .test (some (.find (lambTestLoop msg) msg.channel)) :=
        update_handlers s h _
      rw [step, hs₁]
      simp only [testAdvance, show lambListFind s₁.gateway msg.channel = some 0 from hfind]
      rfl
    have h₃ : step s₂ (.advance h true) = some s₃ := by
      have hs₂ : s₂.handlers h = .test (some (.found (lambTestLoop msg) 0)) :=
        update_handlers s₁ h _
      rw [step, hs₂]
      rfl
    have hgateway₃ : s₃.gateway = [⟨msg.channel, list ++ [lambTestLoop msg]⟩] := by
      change lambQueuePush s.gateway 0 (lambTestLoop msg) = _
      rw [hgateway]
      rfl
    obtain ⟨t, ht, hlist⟩ := ih hgateway₃ (Function.update_self ..)
    refine ⟨t, ?_, ?_⟩
    · rw [testRounds, exec_cons, h₁, Option.bind_some, exec_cons, h₂, Option.bind_some, exec_cons,
        h₃, Option.bind_some, ht]
    · rw [hlist, List.append_assoc, List.singleton_append, ← List.replicate_succ]

/-- Two connections that have both checked a queue with 127 messages push both. -/
theorem two_checked_pushes {s : State} {h k q : Nat} (hne : h ≠ k)
    {channels channels' : List LambChannel} {search search' : Search}
    (hh : s.handlers h = .push channels (some (search, .checked q)))
    (hk : s.handlers k = .push channels' (some (search', .checked q)))
    {queue : Queue LambSubmit} (hqueue : s.gateway[q]? = some queue)
    (hlen : queue.list.length = 127) :
    ∃ t queue', exec step s [.advance h true, .advance k true] = some t ∧
      t.gateway[q]? = some queue' ∧ queue'.list.length = 129 := by
  let s₁ := (s.queuePush q search.message true).reply h (.push channels none) (answer search.flags)
  let s₂ :=
    (s₁.queuePush q search'.message true).reply k (.push channels' none) (answer search'.flags)
  have h₁ : step s (.advance h true) = some s₁ := by
    rw [step, hh]
    rfl
  have h₂ : step s₁ (.advance k true) = some s₂ := by
    have hk₁ : s₁.handlers k = .push channels' (some (search', .checked q)) :=
      (Function.update_of_ne hne.symm _ _).trans hk
    rw [step, hk₁]
    rfl
  have hread : s₂.gateway[q]? =
      some { queue with list := queue.list ++ [search.message] ++ [search'.message] } := by
    change (lambQueuePush (lambQueuePush s.gateway q search.message) q search'.message)[q]? = _
    rw [lambQueuePush, List.getElem?_modify_eq, lambQueuePush, List.getElem?_modify_eq, hqueue]
    rfl
  refine ⟨s₂, _, ?_, hread, ?_⟩
  · rw [exec_cons, h₁, Option.bind_some, exec_cons, h₂]
    rfl
  · simp only [List.length_append, List.length_singleton, hlen]

/-- A gateway and a test client have connected. -/
def opening (channel : Int32) : List Action :=
  [.connect 0 (.pull channel), .create 0 true true, .connect 1 .test]

theorem opening_run (channel : Int32) :
    ∃ s, (∀ as, exec step State.init (opening channel ++ as) = exec step s as) ∧
      s.gateway = [⟨channel, []⟩] ∧ s.handlers 1 = .test none :=
  ⟨_, fun _ => rfl, rfl, rfl⟩

/-- After 129 messages of a test client the queue of the gateway holds 129. -/
theorem test_client_over_bound :
    ∃ t, exec step State.init (opening 7 ++
        testRounds 1 ⟨1, [], [], ascii "13800000000", 11, 2, ascii "hi", 7⟩ 129) = some t ∧
      ¬ Bounded t := by
  obtain ⟨s, hopening, hgateway, hs⟩ := opening_run 7
  let msg : TestMessage := ⟨1, [], [], ascii "13800000000", 11, 2, ascii "hi", 7⟩
  obtain ⟨t, ht, hlist⟩ := testRounds_run 1 msg 129 hgateway hs
  refine ⟨t, (hopening _).trans ht, ?_⟩
  intro hbounded
  have hlen := hbounded _ (hlist ▸ List.mem_singleton_self _)
  rw [List.nil_append, List.length_replicate] at hlen
  omega

end LambGateway.QueueServer.Backpressure
