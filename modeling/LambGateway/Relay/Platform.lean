import LambGateway.Framework.Transition
import LambGateway.QueueServer.Routing
import LambGateway.Relay.Uplink

/-!
# The programs between the clients and the carriers

Clients' sessions with ismg, a queue for each account in mt, a server for each account, the
connections from the servers to the scheduler, the gateways' queues there and a sender in sp for
each gateway. All of them take their steps in any order, and whatever is in flight on a connection
may be lost.
-/

namespace LambGateway.Relay.Platform

open Framework QueueServer Routing Pool
open scoped List

/-- A push connection of the scheduler: the account of the server, and the channels that
`lamb_get_channels` has read for it. -/
structure Connection where
  account : Int32
  channels : List LambChannel

/-- What the programs have read before: ismg a session's account, the scheduler a connection's
channels, sp its gateway. -/
structure Setup where
  get : CmppGetString
  iconv : IconvLibrary
  session : Nat → LambAccount
  connection : Nat → Connection
  gateway : Int32 → Sp.Sender.Gateway

/-- A packet that ismg has handed to mt. -/
structure Accepted where
  session : Nat
  msgId : UInt64
  pack : CmppSubmit

/-- The account and the id that a message carries all the way. -/
abbrev Tag := Int32 × UInt64

structure Call where
  gateway : Int32
  call : Sp.Sender.SubmitCall
  /-- What the confirmed record holds while the acknowledgement is waited for. -/
  cached : Sp.Correlation

/-- `pipe`, `wire` and `sp` are in flight on a session, a connection and a pull connection;
`sent` of `mt` is in flight to the server. A message in `work` is being scheduled, with whether it
has been sent before; one in `holding` has its queue and is not yet in it. The last five fields
only record what has happened. -/
structure State where
  pipe : Nat → List Submit
  mt : Int32 → PullState LambSubmit
  work : Int32 → Option (Submit × Bool)
  wire : Nat → List Submit
  holding : Nat → Option (LambSubmit × Int32)
  gateways : List (Queue LambSubmit)
  sp : Int32 → List Frame
  sender : Int32 → Sp.Sender.State
  accepted : List Accepted
  pushed : List (Nat × Int32 × Tag)
  sends : List (Int32 × Nat × Bool × Tag)
  placed : List (Nat × Int32 × Tag)
  calls : List Call

def State.init : State where
  pipe _ := []
  mt _ := ⟨[], []⟩
  work _ := none
  wire _ := []
  holding _ := none
  gateways := []
  sp _ := []
  sender _ := ⟨⟨0, 0, strncpy [] 20, 0, 0⟩, ⟨0, 0, 0⟩, 0, 0, [], []⟩
  accepted := []
  pushed := []
  sends := []
  placed := []
  calls := []

/-- The connections on which messages are in flight. -/
inductive Link where
  | session (c : Nat)
  | server (a : Int32)
  | scheduler (d : Nat)
  | gateway (g : Int32)

inductive Action where
  /-- ismg takes a `CMPP_SUBMIT` and its `nn_send` to mt succeeds. -/
  | accept (c : Nat) (msgId : UInt64) (pack : CmppSubmit)
  /-- The push loop of mt. -/
  | push (c : Nat) (record node : Bool)
  /-- A `LAMB_REQ` of the server at the pull loop of mt. -/
  | pull (a : Int32) (o : Outcome)
  /-- The server takes a frame and checks the message in it. -/
  | check (a : Int32) (env : Server.Env) (alloc : Server.Allocation)
  /-- A round of the scheduling loop. -/
  | send (a : Int32) (d : Nat)
  /-- The scheduling loop ends: it has received an answer, this message's or an earlier one's. -/
  | settle (a : Int32)
  /-- The push loop of the scheduler takes a message and goes through the channels. -/
  | route (d : Nat) (record : Bool)
  /-- `lamb_queue_push` -/
  | append (d : Nat) (node : Bool)
  /-- The pull loop of the scheduler starts. -/
  | register (g : Int32) (alloc : Bool)
  /-- A `LAMB_REQ` of sp at the pull loop of the scheduler. -/
  | request (g : Int32) (o : Outcome)
  /-- A round of the sender loop of sp. -/
  | submit (g : Int32) (behind : Bytes) (o : Sp.Sender.Outcome)
  /-- A connection breaks: of what is in flight on it only the first `n` are still received. -/
  | lose (link : Link) (n : Nat)

/-- `lamb_list_find(gateway, channel->id)`, and room in the queue. -/
def accepts (gateways : List (Queue LambSubmit)) (phone : CString 20) (channel : LambChannel) :
    Bool :=
  lambCheckOperator channel phone && lambCheckProvince channel phone &&
    (lambListFind gateways channel.id).any (hasRoom gateways)

def tag (m : Submit) : Tag := (m.account, m.id)

def recordTag (r : LambSubmit) : Tag := (r.account, r.id)

def step (setup : Setup) (s : State) : Action → Option State
  | .accept c msgId pack =>
    some
      { s with
        pipe := Function.update s.pipe c
          (s.pipe c ++ [Ismg.lambWorkLoop setup.get (setup.session c) msgId pack])
        accepted := s.accepted ++ [⟨c, msgId, pack⟩] }
  | .push c record node =>
    match s.pipe c with
    | [] => none
    | m :: pipe =>
      let popped := { s with pipe := Function.update s.pipe c pipe }
      if record && node then
        let a := (setup.session c).id
        some
          { popped with
            mt := Function.update s.mt a
              { s.mt a with queue := (s.mt a).queue ++ [Mt.lambPushLoop m] }
            pushed := s.pushed ++ [(c, a, tag m)] }
      else some popped
  | .pull a o => some { s with mt := Function.update s.mt a (Mt.lambPullLoop (s.mt a) o) }
  | .check a env alloc =>
    match s.work a, (s.mt a).sent with
    | none, f :: sent =>
      let received := { s with mt := Function.update s.mt a { s.mt a with sent := sent } }
      match f with
      | .submit m =>
        match Server.passChecks env alloc m with
        | .ok m => some { received with work := Function.update s.work a (some (m, false)) }
        | .error _ => some received
      | _ => some received
    | _, _ => none
  | .send a d =>
    match s.work a with
    | none => none
    | some (m, again) =>
      if (setup.connection d).account = a then
        some
          { s with
            work := Function.update s.work a (some (m, true))
            wire := Function.update s.wire d (s.wire d ++ [m])
            sends := s.sends ++ [(a, d, again, tag m)] }
      else none
  | .settle a =>
    if (s.work a).isSome then some { s with work := Function.update s.work a none } else none
  | .route d record =>
    match s.holding d, s.wire d with
    | none, m :: wire =>
      let message := Scheduler.lambPushLoop m
      let received := { s with wire := Function.update s.wire d wire }
      let channel := (setup.connection d).channels.find? (accepts s.gateways message.phone)
      match record, channel with
      | true, some channel =>
        some { received with holding := Function.update s.holding d (some (message, channel.id)) }
      | _, _ => some received
    | _, _ => none
  | .append d node =>
    match s.holding d with
    | none => none
    | some (message, g) =>
      let appended := { s with holding := Function.update s.holding d none }
      match node, lambListFind s.gateways g with
      | true, some q =>
        some
          { appended with
            gateways := lambQueuePush s.gateways q message
            placed := s.placed ++ [(d, g, recordTag message)] }
      | _, _ => some appended
  | .register g alloc =>
    match alloc, lambListFind s.gateways g with
    | true, none => some { s with gateways := s.gateways ++ [lambQueueNew g] }
    | _, _ => some s
  | .request g o =>
    match lambListFind s.gateways g with
    | none => none
    | some q =>
      match s.gateways[q]? with
      | none => none
      | some queue =>
        let r := Scheduler.lambPullLoop ⟨queue.list, s.sp g⟩ o
        some
          { s with
            gateways := s.gateways.modify q fun queue => { queue with list := r.queue }
            sp := Function.update s.sp g r.sent }
  | .submit g behind o =>
    match s.sp g with
    | [] => none
    | f :: sp =>
      let received := { s with sp := Function.update s.sp g sp }
      match f with
      | .submit m =>
        let sender := Sp.Sender.lambSenderLoop setup.iconv (setup.gateway g) behind (s.sender g) m o
        some
          { received with
            sender := Function.update s.sender g sender
            calls := s.calls ++
              ((Sp.Sender.submitCall setup.iconv (setup.gateway g) behind o.sequenceId m).map
                (⟨g, ·, sender.confirmed.correlation⟩)).toList }
      | _ => some received
  | .lose (.session c) n => some { s with pipe := Function.update s.pipe c ((s.pipe c).take n) }
  | .lose (.server a) n =>
    some { s with mt := Function.update s.mt a { s.mt a with sent := (s.mt a).sent.take n } }
  | .lose (.scheduler d) n => some { s with wire := Function.update s.wire d ((s.wire d).take n) }
  | .lose (.gateway g) n => some { s with sp := Function.update s.sp g ((s.sp g).take n) }

example (setup : Setup) (s : State) (c : Nat) (record node : Bool) (h : s.pipe c = []) :
    step setup s (.push c record node) = none := by
  simp only [step, h]

/-! ## The push loop of the scheduler in two steps -/

theorem accepts_iff (gateways : List (Queue LambSubmit)) (phone : CString 20)
    (channel : LambChannel) :
    accepts gateways phone channel = true ↔ Takes gateways phone channel := by
  rw [takes_iff, accepts, lambCheckProvince, Bool.and_true, Bool.and_eq_true, Option.any_eq_true]

/-- Where nothing happens in between, `route` and `append` are the push loop. -/
theorem lambPushLoop_eq (gateways : List (Queue LambSubmit)) (channels : List LambChannel)
    (m : Submit) (node : Bool) :
    (lambPushLoop gateways channels m true node).2 =
      match channels.find? (accepts gateways (Scheduler.lambPushLoop m).phone) with
      | none => gateways
      | some channel =>
        match node, lambListFind gateways channel.id with
        | true, some q => lambQueuePush gateways q (Scheduler.lambPushLoop m)
        | _, _ => gateways := by
  cases hfind : channels.find? (accepts gateways (Scheduler.lambPushLoop m).phone) with
  | none =>
    have hnone : ∀ channel ∈ channels,
        ¬ Takes gateways (Scheduler.lambPushLoop m).phone channel := by
      intro channel hchannel htakes
      exact List.find?_eq_none.mp hfind channel hchannel ((accepts_iff _ _ _).mpr htakes)
    rw [lambPushLoop_none m node hnone]
  | some channel =>
    obtain ⟨haccepts, front, rest, rfl, hfront⟩ := List.find?_eq_some_iff_append.mp hfind
    have hnone : ∀ c ∈ front, ¬ Takes gateways (Scheduler.lambPushLoop m).phone c := by
      intro c hc htakes
      simpa [(accepts_iff _ _ _).mpr htakes] using hfront c hc
    obtain ⟨q, hq, hloop⟩ := lambPushLoop_first rest node hnone ((accepts_iff _ _ _).mp haccepts)
    rw [hloop]
    simp only [hq]
    cases node <;> rfl

/-! ## What a step can do -/

def messages (frames : List Frame) : List Submit :=
  frames.filterMap fun
    | .submit m => some m
    | _ => none

def queueOf (gateways : List (Queue LambSubmit)) (g : Int32) : List LambSubmit :=
  ((gateways.find? fun queue => queue.id == g).map Queue.list).getD []

@[simp] theorem messages_nil : messages [] = [] := rfl

@[simp] theorem messages_append (fs fs' : List Frame) :
    messages (fs ++ fs') = messages fs ++ messages fs' :=
  List.filterMap_append

@[simp] theorem messages_submit (m : Submit) (fs : List Frame) :
    messages (.submit m :: fs) = m :: messages fs :=
  rfl

@[simp] theorem messages_submitFrame (r : LambSubmit) (fs : List Frame) :
    messages (submitFrame r :: fs) = packSubmit r :: messages fs :=
  rfl

/-- `LAMB_EMPTY` and a frame without a command carry no message. -/
theorem messages_filter (fs : List Frame) : messages (fs.filter Frame.carries) = messages fs := by
  induction fs with
  | nil => rfl
  | cons f fs ih =>
    cases f with
    | submit m => exact congrArg (m :: ·) ih
    | report _ | deliver _ | empty | headless => exact ih

theorem messages_sublist {fs fs' : List Frame} (h : fs <+ fs') : messages fs <+ messages fs' :=
  h.filterMap _

/-- Of a queue for each number, the one that a look-up finds is changed. -/
theorem queueOf_modify {gateways : List (Queue LambSubmit)} {g : Int32} {q : Nat}
    (hq : lambListFind gateways g = some q) (f : List LambSubmit → List LambSubmit) (g' : Int32) :
    queueOf (gateways.modify q fun queue => { queue with list := f queue.list }) g' =
      if g' = g then f (queueOf gateways g) else queueOf gateways g' := by
  obtain ⟨front, queue, rest, rfl, rfl, rfl, hfront⟩ := lambListFind_eq_some hq
  have hmodify : (front ++ queue :: rest).modify front.length
      (fun queue => { queue with list := f queue.list }) =
      front ++ { queue with list := f queue.list } :: rest := by
    rw [List.modify_eq_take_cons_drop (by simp)]
    simp
  have hnone : front.find? (fun other => other.id == queue.id) = none := by
    simpa using hfront
  rw [hmodify]
  by_cases hg : g' = queue.id
  · subst hg
    simp [queueOf, List.find?_append, hnone]
  · have hne : (queue.id == g') = false := beq_eq_false_iff_ne.mpr (Ne.symm hg)
    simp [queueOf, List.find?_append, hne, hg]

theorem queueOf_push {gateways : List (Queue LambSubmit)} {g : Int32} {q : Nat}
    (hq : lambListFind gateways g = some q) (r : LambSubmit) (g' : Int32) :
    queueOf (lambQueuePush gateways q r) g' =
      if g' = g then queueOf gateways g ++ [r] else queueOf gateways g' :=
  queueOf_modify hq (· ++ [r]) g'

theorem queueOf_register {gateways : List (Queue LambSubmit)} (g g' : Int32)  :
    queueOf (gateways ++ [lambQueueNew g]) g' = queueOf gateways g' := by
  rw [queueOf, queueOf, List.find?_append]
  cases gateways.find? fun queue => queue.id == g' with
  | some queue => rfl
  | none =>
    by_cases hg : g = g' <;> simp [lambQueueNew, hg]

theorem queueOf_eq {gateways : List (Queue LambSubmit)} {g : Int32} {q : Nat}
    {queue : Queue LambSubmit} (hq : lambListFind gateways g = some q)
    (hget : gateways[q]? = some queue) : queueOf gateways g = queue.list := by
  have hfind : gateways.find? (fun queue => queue.id == g) = some queue := by
    rw [List.find?_eq_bind_findIdx?_getElem?]
    exact Option.bind_eq_some_iff.mpr ⟨q, hq, hget⟩
  rw [queueOf, hfind]
  rfl

/-- `t` has lost something of what is under way in `s`, and nothing else has happened. -/
structure Less (s t : State) : Prop where
  pipe : ∀ c, t.pipe c <+ s.pipe c
  queue : ∀ a, (t.mt a).queue <+ (s.mt a).queue
  sent : ∀ a, messages (t.mt a).sent <+ messages (s.mt a).sent
  work : ∀ a, t.work a = s.work a ∨ t.work a = none
  wire : ∀ d, t.wire d <+ s.wire d
  holding : ∀ d, t.holding d = s.holding d ∨ t.holding d = none
  gateways : ∀ g, queueOf t.gateways g <+ queueOf s.gateways g
  sp : ∀ g, messages (t.sp g) <+ messages (s.sp g)
  accepted : t.accepted = s.accepted
  pushed : t.pushed = s.pushed
  sends : t.sends = s.sends
  placed : t.placed = s.placed
  calls : t.calls = s.calls

theorem Less.refl (s : State) : Less s s where
  pipe _ := .refl _
  queue _ := .refl _
  sent _ := .refl _
  work _ := .inl rfl
  wire _ := .refl _
  holding _ := .inl rfl
  gateways _ := .refl _
  sp _ := .refl _
  accepted := rfl
  pushed := rfl
  sends := rfl
  placed := rfl
  calls := rfl

/-- What a step does, where it does not only lose something. -/
inductive Change (setup : Setup) (s : State) : State → Prop
  | accept (c : Nat) (msgId : UInt64) (pack : CmppSubmit) :
    Change setup s
      { s with
        pipe := Function.update s.pipe c
          (s.pipe c ++ [Ismg.lambWorkLoop setup.get (setup.session c) msgId pack])
        accepted := s.accepted ++ [⟨c, msgId, pack⟩] }
  | push {c : Nat} {m : Submit} {pipe : List Submit} (hpipe : s.pipe c = m :: pipe) :
    Change setup s
      { s with
        pipe := Function.update s.pipe c pipe
        mt := Function.update s.mt (setup.session c).id
          { s.mt (setup.session c).id with
            queue := (s.mt (setup.session c).id).queue ++ [Mt.lambPushLoop m] }
        pushed := s.pushed ++ [(c, (setup.session c).id, tag m)] }
  | pull {a : Int32} {r : LambSubmit} {queue : List LambSubmit}
    (hqueue : (s.mt a).queue = r :: queue) :
    Change setup s
      { s with mt := Function.update s.mt a ⟨queue, (s.mt a).sent ++ [submitFrame r]⟩ }
  | check {a : Int32} {m m' : Submit} {sent : List Frame} (env : Server.Env)
    (alloc : Server.Allocation) (hwork : s.work a = none)
    (hsent : (s.mt a).sent = .submit m :: sent)
    (hchecks : Server.passChecks env alloc m = .ok m') :
    Change setup s
      { s with
        mt := Function.update s.mt a { s.mt a with sent := sent }
        work := Function.update s.work a (some (m', false)) }
  | send {a : Int32} {d : Nat} {m : Submit} {again : Bool} (hwork : s.work a = some (m, again))
    (hconnection : (setup.connection d).account = a) :
    Change setup s
      { s with
        work := Function.update s.work a (some (m, true))
        wire := Function.update s.wire d (s.wire d ++ [m])
        sends := s.sends ++ [(a, d, again, tag m)] }
  | route {d : Nat} {m : Submit} {wire : List Submit} {channel : LambChannel}
    (hholding : s.holding d = none) (hwire : s.wire d = m :: wire)
    (hchannel : channel ∈ (setup.connection d).channels)
    (haccepts : lambCheckOperator channel (Scheduler.lambPushLoop m).phone = true) :
    Change setup s
      { s with
        wire := Function.update s.wire d wire
        holding := Function.update s.holding d (some (Scheduler.lambPushLoop m, channel.id)) }
  | append {d : Nat} {r : LambSubmit} {g : Int32} {q : Nat} (hholding : s.holding d = some (r, g))
    (hq : lambListFind s.gateways g = some q) :
    Change setup s
      { s with
        holding := Function.update s.holding d none
        gateways := lambQueuePush s.gateways q r
        placed := s.placed ++ [(d, g, recordTag r)] }
  | request {g : Int32} {q : Nat} {r : LambSubmit} {rest : List LambSubmit}
    (hq : lambListFind s.gateways g = some q) (hqueue : queueOf s.gateways g = r :: rest) :
    Change setup s
      { s with
        gateways := s.gateways.modify q fun queue => { queue with list := rest }
        sp := Function.update s.sp g (s.sp g ++ [submitFrame r]) }
  | submit {g : Int32} {m : Submit} {sp : List Frame} {call : Sp.Sender.SubmitCall}
    (behind : Bytes) (o : Sp.Sender.Outcome) (hsp : s.sp g = .submit m :: sp)
    (hcall : Sp.Sender.submitCall setup.iconv (setup.gateway g) behind o.sequenceId m = some call) :
    Change setup s
      { s with
        sp := Function.update s.sp g sp
        sender := Function.update s.sender g
          (Sp.Sender.lambSenderLoop setup.iconv (setup.gateway g) behind (s.sender g) m o)
        calls := s.calls ++ [⟨g, call, (Sp.Sender.confirm (s.sender g).confirmed m).correlation⟩] }

/-- Everything in a queue and not yet taken is cut, if anything. -/
theorem sublist_update {ι α β : Type*} [DecidableEq ι] {f : ι → α} {i : ι} {v : α}
    (view : α → List β) (h : view v <+ view (f i)) (j : ι) :
    view (Function.update f i v j) <+ view (f j) := by
  by_cases hj : j = i
  · subst hj
    rwa [Function.update_self]
  · rw [Function.update_of_ne hj]

theorem update_none {ι α : Type*} [DecidableEq ι] (f : ι → Option α) (i j : ι) :
    Function.update f i none j = f j ∨ Function.update f i none j = none := by
  by_cases hj : j = i
  · subst hj
    exact .inr (Function.update_self ..)
  · exact .inl (Function.update_of_ne hj ..)

variable {setup : Setup} {s t : State}

theorem change_or_less_pull {a : Int32} {o : Outcome} (h : step setup s (.pull a o) = some t) :
    Change setup s t ∨ Less s t := by
  cases h
  cases hqueue : (s.mt a).queue with
  | nil =>
    obtain ⟨hnil, hfilter⟩ := lambPullLoop_nil .mt hqueue o
    refine .inr { Less.refl s with queue := ?_, sent := ?_ }
    · apply sublist_update PullState.queue
      rw [show Mt.lambPullLoop (s.mt a) o = lambPullLoop .mt (s.mt a) o from rfl, hnil]
      exact List.nil_sublist _
    · apply sublist_update fun p : PullState LambSubmit => messages p.sent
      rw [show Mt.lambPullLoop (s.mt a) o = lambPullLoop .mt (s.mt a) o from rfl,
        ← messages_filter, hfilter, messages_filter]
  | cons r queue =>
    have hpull : Mt.lambPullLoop (s.mt a) o = _ := lambPullLoop_cons .mt hqueue o
    rw [hpull]
    cases o.succeeds with
    | true => exact .inl (.pull hqueue)
    | false =>
      refine .inr { Less.refl s with queue := ?_, sent := ?_ }
      · apply sublist_update PullState.queue
        rw [hqueue]
        exact List.sublist_cons_self r queue
      · exact sublist_update (fun p : PullState LambSubmit => messages p.sent) (.refl _)

theorem less_received {a : Int32} {f : Frame} {sent : List Frame}
    (hsent : (s.mt a).sent = f :: sent) :
    Less s { s with mt := Function.update s.mt a { s.mt a with sent := sent } } := by
  refine { Less.refl s with queue := ?_, sent := ?_ }
  · exact sublist_update PullState.queue (.refl _)
  · apply sublist_update fun p : PullState LambSubmit => messages p.sent
    rw [hsent]
    exact messages_sublist (List.sublist_cons_self f sent)

theorem change_or_less_check {a : Int32} {env : Server.Env} {alloc : Server.Allocation}
    (h : step setup s (.check a env alloc) = some t) : Change setup s t ∨ Less s t := by
  simp only [step] at h
  split at h
  · next f sent hwork hsent =>
    split at h
    · split at h <;> cases h
      · next hchecks => exact .inl (.check env alloc hwork hsent hchecks)
      · exact .inr (less_received hsent)
    · cases h
      exact .inr (less_received hsent)
  · cases h

theorem less_taken {d : Nat} {m : Submit} {wire : List Submit} (hwire : s.wire d = m :: wire) :
    Less s { s with wire := Function.update s.wire d wire } := by
  refine { Less.refl s with wire := ?_ }
  apply sublist_update id
  rw [hwire]
  exact List.sublist_cons_self m wire

theorem change_or_less_route {d : Nat} {record : Bool}
    (h : step setup s (.route d record) = some t) :
    Change setup s t ∨ Less s t := by
  simp only [step] at h
  split at h
  · next m wire hholding hwire =>
    split at h
    · next channel hfind =>
      cases h
      have hmem := List.mem_of_find?_eq_some hfind
      have haccepts := (accepts_iff _ _ _).mp (List.find?_some hfind)
      exact .inl (.route hholding hwire hmem haccepts.1)
    · cases h
      exact .inr (less_taken hwire)
  · cases h

theorem less_dropped (d : Nat) :
    Less s { s with holding := Function.update s.holding d none } :=
  { Less.refl s with holding := update_none s.holding d }

theorem change_or_less_append {d : Nat} {node : Bool} (h : step setup s (.append d node) = some t) :
    Change setup s t ∨ Less s t := by
  simp only [step] at h
  split at h
  · cases h
  · next r g hholding =>
    split at h <;> cases h
    · next q hq => exact .inl (.append hholding hq)
    · exact .inr (less_dropped d)

theorem less_register {g : Int32} {alloc : Bool} (h : step setup s (.register g alloc) = some t) :
    Less s t := by
  simp only [step] at h
  split at h <;> cases h
  · refine { Less.refl s with gateways := fun g' => ?_ }
    change queueOf (s.gateways ++ [lambQueueNew g]) g' <+ queueOf s.gateways g'
    rw [queueOf_register]
  · exact .refl s

theorem less_requested {g : Int32} {q : Nat} {rest : List LambSubmit} {sp : List Frame}
    (hq : lambListFind s.gateways g = some q) (hrest : rest <+ queueOf s.gateways g)
    (hsp : messages sp <+ messages (s.sp g)) :
    Less s
      { s with
        gateways := s.gateways.modify q fun queue => { queue with list := rest }
        sp := Function.update s.sp g sp } := by
  refine { Less.refl s with gateways := fun g' => ?_, sp := sublist_update messages hsp }
  have hmodify := queueOf_modify hq (fun _ => rest) g'
  dsimp only at hmodify ⊢
  rw [hmodify]
  split
  · next hg => exact hg ▸ hrest
  · exact .refl _

theorem change_or_less_request {g : Int32} {o : Outcome}
    (h : step setup s (.request g o) = some t) : Change setup s t ∨ Less s t := by
  simp only [step] at h
  split at h
  · cases h
  · next q hq =>
    split at h
    · cases h
    · next queue hget =>
      cases h
      have hlist := queueOf_eq hq hget
      cases hqueue : queue.list with
      | nil =>
        obtain ⟨hnil, hfilter⟩ := lambPullLoop_nil .scheduler (s := ⟨[], s.sp g⟩) rfl o
        refine .inr (less_requested hq ?_ ?_)
        · rw [show Scheduler.lambPullLoop ⟨[], s.sp g⟩ o = lambPullLoop .scheduler _ o from rfl,
            hnil]
          exact List.nil_sublist _
        · rw [show Scheduler.lambPullLoop ⟨[], s.sp g⟩ o = lambPullLoop .scheduler _ o from rfl,
            ← messages_filter, hfilter, messages_filter]
      | cons r rest =>
        have hcons := hlist.trans hqueue
        have hpull : Scheduler.lambPullLoop ⟨r :: rest, s.sp g⟩ o = _ :=
          lambPullLoop_cons .scheduler (s := ⟨r :: rest, s.sp g⟩) rfl o
        rw [hpull]
        cases o.succeeds with
        | true => exact .inl (.request hq hcons)
        | false =>
          refine .inr (less_requested hq ?_ (.refl _))
          rw [hcons]
          exact List.sublist_cons_self r rest

theorem less_fetched {g : Int32} {f : Frame} {sp : List Frame} (hsp : s.sp g = f :: sp)
    (sender : Int32 → Sp.Sender.State) :
    Less s { s with sp := Function.update s.sp g sp, sender := sender } := by
  refine { Less.refl s with sp := sublist_update messages ?_ }
  rw [hsp]
  exact messages_sublist (List.sublist_cons_self f sp)

theorem change_or_less_submit {g : Int32} {behind : Bytes} {o : Sp.Sender.Outcome}
    (h : step setup s (.submit g behind o) = some t) : Change setup s t ∨ Less s t := by
  simp only [step] at h
  split at h
  · cases h
  · next f sp hsp =>
    split at h <;> cases h
    · next m =>
      cases hcall : Sp.Sender.submitCall setup.iconv (setup.gateway g) behind o.sequenceId m with
      | none =>
        rw [Option.map_none, Option.toList_none, List.append_nil]
        exact .inr (less_fetched hsp _)
      | some call =>
        have hcached : (Sp.Sender.lambSenderLoop setup.iconv (setup.gateway g) behind
            (s.sender g) m o).confirmed.correlation =
              (Sp.Sender.confirm (s.sender g).confirmed m).correlation := by
          rw [Sp.Sender.lambSenderLoop, hcall]
          rfl
        rw [hcached]
        exact .inl (.submit behind o hsp hcall)
    · exact .inr (less_fetched hsp _)

theorem less_lose {link : Link} {n : Nat} (h : step setup s (.lose link n) = some t) :
    Less s t := by
  cases link with
  | session c =>
    cases h
    exact { Less.refl s with pipe := sublist_update id (List.take_sublist _ _) }
  | server a =>
    cases h
    refine { Less.refl s with queue := ?_, sent := ?_ }
    · exact sublist_update PullState.queue (.refl _)
    · apply sublist_update fun p : PullState LambSubmit => messages p.sent
      exact messages_sublist (List.take_sublist _ _)
  | scheduler d =>
    cases h
    exact { Less.refl s with wire := sublist_update id (List.take_sublist _ _) }
  | gateway g =>
    cases h
    exact { Less.refl s with
      sp := sublist_update messages (messages_sublist (List.take_sublist _ _)) }

theorem change_or_less {a : Action} (h : step setup s a = some t) :
    Change setup s t ∨ Less s t := by
  cases a with
  | accept c msgId pack =>
    cases h
    exact .inl (.accept c msgId pack)
  | push c record node =>
    simp only [step] at h
    split at h
    · cases h
    · next m pipe hpipe =>
      split at h <;> cases h
      · exact .inl (.push hpipe)
      · refine .inr { Less.refl s with pipe := sublist_update id ?_ }
        rw [id, id, hpipe]
        exact List.sublist_cons_self m pipe
  | pull a o => exact change_or_less_pull h
  | check a env alloc => exact change_or_less_check h
  | send a d =>
    simp only [step] at h
    split at h
    · cases h
    · next m again hwork =>
      split at h <;> cases h
      next hconnection => exact .inl (.send hwork hconnection)
  | settle a =>
    simp only [step] at h
    split at h <;> cases h
    exact .inr { Less.refl s with work := update_none s.work a }
  | route d record => exact change_or_less_route h
  | append d node => exact change_or_less_append h
  | register g alloc => exact .inr (less_register h)
  | request g o => exact change_or_less_request h
  | submit g behind o => exact change_or_less_submit h
  | lose link n => exact .inr (less_lose h)

/-! ## What each place holds -/

def Setup.account (setup : Setup) (e : Accepted) : Int32 := (setup.session e.session).id

def Setup.submitted (setup : Setup) (e : Accepted) : Submit :=
  Ismg.lambWorkLoop setup.get (setup.session e.session) e.msgId e.pack

/-- What the checks of a server make of the packet. -/
def Setup.Checked (setup : Setup) (e : Accepted) (m : Submit) : Prop :=
  ∃ env alloc, Server.passChecks env alloc
    (packSubmit (Mt.lambPushLoop (setup.submitted e))) = .ok m

/-- A channel of the account leads to the gateway, and takes the record's number. -/
def Setup.Leads (setup : Setup) (a g : Int32) (phone : CString 20) : Prop :=
  ∃ d, (setup.connection d).account = a ∧ ∃ channel ∈ (setup.connection d).channels,
    channel.id = g ∧ lambCheckOperator channel phone = true

def Setup.Routed (setup : Setup) (e : Accepted) (g : Int32) (r : LambSubmit) : Prop :=
  setup.Leads (setup.account e) g r.phone ∧
    ∃ m, setup.Checked e m ∧ r = Scheduler.lambPushLoop m

def Setup.Called (setup : Setup) (e : Accepted) (c : Call) : Prop :=
  ∃ r, setup.Routed e c.gateway r ∧ ∃ behind sequenceId confirmed,
    Sp.Sender.submitCall setup.iconv (setup.gateway c.gateway) behind sequenceId (packSubmit r) =
      some c.call ∧
    c.cached = (Sp.Sender.confirm confirmed (packSubmit r)).correlation

/-- Everything under way is some accepted packet, as far as it has come. -/
structure Inv (setup : Setup) (s : State) : Prop where
  pipe : ∀ c, ∀ m ∈ s.pipe c, ∃ e ∈ s.accepted, e.session = c ∧ m = setup.submitted e
  queue : ∀ a, ∀ r ∈ (s.mt a).queue, ∃ e ∈ s.accepted,
    setup.account e = a ∧ r = Mt.lambPushLoop (setup.submitted e)
  sent : ∀ a, ∀ m ∈ messages (s.mt a).sent, ∃ e ∈ s.accepted,
    setup.account e = a ∧ m = packSubmit (Mt.lambPushLoop (setup.submitted e))
  work : ∀ a p, s.work a = some p → ∃ e ∈ s.accepted,
    setup.account e = a ∧ setup.Checked e p.1
  wire : ∀ d, ∀ m ∈ s.wire d, ∃ e ∈ s.accepted,
    setup.account e = (setup.connection d).account ∧ setup.Checked e m
  holding : ∀ d p, s.holding d = some p → ∃ e ∈ s.accepted,
    setup.account e = (setup.connection d).account ∧ setup.Routed e p.2 p.1
  gateways : ∀ g, ∀ r ∈ queueOf s.gateways g, ∃ e ∈ s.accepted, setup.Routed e g r
  sp : ∀ g, ∀ m ∈ messages (s.sp g), ∃ e ∈ s.accepted, ∃ r, setup.Routed e g r ∧ m = packSubmit r
  calls : ∀ c ∈ s.calls, ∃ e ∈ s.accepted, setup.Called e c

theorem inv_init (setup : Setup) : Inv setup State.init where
  pipe := by simp [State.init]
  queue := by simp [State.init]
  sent := by simp [State.init]
  work := by simp [State.init]
  wire := by simp [State.init]
  holding := by simp [State.init]
  gateways := by simp [State.init, queueOf]
  sp := by simp [State.init]
  calls := by simp [State.init]

theorem Inv.less (hs : Inv setup s) (h : Less s t) : Inv setup t where
  pipe c m hm := h.accepted ▸ hs.pipe c m ((h.pipe c).subset hm)
  queue a r hr := h.accepted ▸ hs.queue a r ((h.queue a).subset hr)
  sent a m hm := h.accepted ▸ hs.sent a m ((h.sent a).subset hm)
  work a p hwork := by
    rcases h.work a with heq | hnone
    · exact h.accepted ▸ hs.work a p (heq ▸ hwork)
    · cases hnone.symm.trans hwork
  wire d m hm := h.accepted ▸ hs.wire d m ((h.wire d).subset hm)
  holding d p hholding := by
    rcases h.holding d with heq | hnone
    · exact h.accepted ▸ hs.holding d p (heq ▸ hholding)
    · cases hnone.symm.trans hholding
  gateways g r hr := h.accepted ▸ hs.gateways g r ((h.gateways g).subset hr)
  sp g m hm := h.accepted ▸ hs.sp g m ((h.sp g).subset hm)
  calls c hc := by
    rw [h.calls] at hc
    exact h.accepted ▸ hs.calls c hc

/-- One of several places is given new contents, the others stay as they are. -/
theorem forall_mem_update {ι α β : Type*} [DecidableEq ι] {f : ι → α} {i : ι} {v : α}
    (view : α → List β) {P : ι → β → Prop} (hv : ∀ x ∈ view v, P i x)
    (hf : ∀ j, ∀ x ∈ view (f j), P j x) : ∀ j, ∀ x ∈ view (Function.update f i v j), P j x := by
  intro j x hx
  by_cases hj : j = i
  · subst hj
    rw [Function.update_self] at hx
    exact hv x hx
  · rw [Function.update_of_ne hj] at hx
    exact hf j x hx

/-- A cell is filled, the others stay as they are. -/
theorem forall_update_some {ι α : Type*} [DecidableEq ι] {f : ι → Option α} {i : ι} {v : α}
    {P : ι → α → Prop} (hv : P i v) (hf : ∀ j x, f j = some x → P j x) :
    ∀ j x, Function.update f i (some v) j = some x → P j x := by
  intro j x hx
  by_cases hj : j = i
  · subst hj
    rw [Function.update_self] at hx
    exact Option.some.inj hx ▸ hv
  · rw [Function.update_of_ne hj] at hx
    exact hf j x hx

/-- What joins the end of a list that has a property has it too. -/
theorem forall_mem_concat {α : Type*} {l : List α} {y : α} {P : α → Prop} (hl : ∀ x ∈ l, P x)
    (hy : P y) : ∀ x ∈ l ++ [y], P x :=
  List.forall_mem_append.mpr ⟨hl, List.forall_mem_singleton.mpr hy⟩

theorem Inv.grow (hs : Inv setup s) {pipe : Nat → List Submit} {accepted : List Accepted}
    (hsub : s.accepted ⊆ accepted)
    (hpipe : ∀ c, ∀ m ∈ pipe c, ∃ e ∈ accepted, e.session = c ∧ m = setup.submitted e) :
    Inv setup { s with pipe := pipe, accepted := accepted } where
  pipe := hpipe
  queue a r hr := (hs.queue a r hr).imp fun _ h => ⟨hsub h.1, h.2⟩
  sent a m hm := (hs.sent a m hm).imp fun _ h => ⟨hsub h.1, h.2⟩
  work a p hwork := (hs.work a p hwork).imp fun _ h => ⟨hsub h.1, h.2⟩
  wire d m hm := (hs.wire d m hm).imp fun _ h => ⟨hsub h.1, h.2⟩
  holding d p hholding := (hs.holding d p hholding).imp fun _ h => ⟨hsub h.1, h.2⟩
  gateways g r hr := (hs.gateways g r hr).imp fun _ h => ⟨hsub h.1, h.2⟩
  sp g m hm := (hs.sp g m hm).imp fun _ h => ⟨hsub h.1, h.2⟩
  calls c hc := (hs.calls c hc).imp fun _ h => ⟨hsub h.1, h.2⟩

theorem Inv.accept (hs : Inv setup s) (c : Nat) (msgId : UInt64) (pack : CmppSubmit) :
    Inv setup
      { s with
        pipe := Function.update s.pipe c
          (s.pipe c ++ [Ismg.lambWorkLoop setup.get (setup.session c) msgId pack])
        accepted := s.accepted ++ [⟨c, msgId, pack⟩] } := by
  have hsub : s.accepted ⊆ s.accepted ++ [⟨c, msgId, pack⟩] := List.subset_append_left _ _
  have hold (c' : Nat) (m : Submit) (hm : m ∈ s.pipe c') :
      ∃ e ∈ s.accepted ++ [⟨c, msgId, pack⟩], e.session = c' ∧ m = setup.submitted e :=
    (hs.pipe c' m hm).imp fun _ h => ⟨hsub h.1, h.2⟩
  refine hs.grow hsub (forall_mem_update id ?_ hold)
  exact forall_mem_concat (hold c) ⟨⟨c, msgId, pack⟩, by simp, rfl, rfl⟩

theorem Inv.change (hs : Inv setup s) (h : Change setup s t) : Inv setup t := by
  cases h with
  | accept c msgId pack => exact hs.accept c msgId pack
  | @push c m pipe hpipe =>
    have hold := hs.pipe c
    rw [hpipe] at hold
    obtain ⟨⟨e, he, rfl, rfl⟩, hrest⟩ := List.forall_mem_cons.mp hold
    refine { hs with pipe := forall_mem_update id hrest hs.pipe, queue := ?_, sent := ?_ }
    · apply forall_mem_update PullState.queue _ hs.queue
      exact forall_mem_concat (hs.queue _) ⟨e, he, rfl, rfl⟩
    · exact forall_mem_update (fun p : PullState LambSubmit => messages p.sent) (hs.sent _) hs.sent
  | @pull a r queue hqueue =>
    have hold := hs.queue a
    rw [hqueue] at hold
    obtain ⟨⟨e, he, haccount, rfl⟩, hrest⟩ := List.forall_mem_cons.mp hold
    refine { hs with queue := forall_mem_update PullState.queue hrest hs.queue, sent := ?_ }
    apply forall_mem_update (fun p : PullState LambSubmit => messages p.sent) _ hs.sent
    rw [messages_append]
    exact forall_mem_concat (hs.sent a) ⟨e, he, haccount, rfl⟩
  | @check a m m' sent env alloc hwork hsent hchecks =>
    have hold := hs.sent a
    rw [hsent] at hold
    obtain ⟨⟨e, he, haccount, rfl⟩, hrest⟩ := List.forall_mem_cons.mp hold
    refine { hs with queue := ?_, sent := ?_, work := ?_ }
    · exact forall_mem_update PullState.queue (hs.queue a) hs.queue
    · exact forall_mem_update (fun p : PullState LambSubmit => messages p.sent) hrest hs.sent
    · exact forall_update_some ⟨e, he, haccount, env, alloc, hchecks⟩ hs.work
  | @send a d m again hwork hconnection =>
    obtain ⟨e, he, haccount, hchecked⟩ := hs.work a (m, again) hwork
    refine { hs with work := ?_, wire := ?_ }
    · exact forall_update_some ⟨e, he, haccount, hchecked⟩ hs.work
    · apply forall_mem_update id _ hs.wire
      exact forall_mem_concat (hs.wire d) ⟨e, he, haccount.trans hconnection.symm, hchecked⟩
  | @route d m wire channel hholding hwire hchannel haccepts =>
    have hold := hs.wire d
    rw [hwire] at hold
    obtain ⟨⟨e, he, haccount, hchecked⟩, hrest⟩ := List.forall_mem_cons.mp hold
    refine { hs with wire := forall_mem_update id hrest hs.wire, holding := ?_ }
    refine forall_update_some ⟨e, he, haccount, ?_, m, hchecked, rfl⟩ hs.holding
    exact ⟨d, haccount.symm, channel, hchannel, rfl, haccepts⟩
  | @append d r g q hholding hq =>
    obtain ⟨e, he, -, hrouted⟩ := hs.holding d (r, g) hholding
    refine { hs with holding := ?_, gateways := ?_ }
    · intro d' p hp
      rcases update_none s.holding d d' with heq | hnone
      · exact hs.holding d' p (heq ▸ hp)
      · cases hnone.symm.trans hp
    · intro g' x hx
      rw [queueOf_push hq] at hx
      split at hx
      · next hg =>
        subst hg
        exact forall_mem_concat (hs.gateways g') ⟨e, he, hrouted⟩ x hx
      · exact hs.gateways g' x hx
  | @request g q r rest hq hqueue =>
    have hold := hs.gateways g
    rw [hqueue] at hold
    obtain ⟨⟨e, he, hrouted⟩, hrest⟩ := List.forall_mem_cons.mp hold
    refine { hs with gateways := ?_, sp := ?_ }
    · intro g' x hx
      rw [queueOf_modify hq fun _ => rest] at hx
      split at hx
      · next hg =>
        subst hg
        exact hrest x hx
      · exact hs.gateways g' x hx
    · apply forall_mem_update messages _ hs.sp
      rw [messages_append]
      exact forall_mem_concat (hs.sp g) ⟨e, he, r, hrouted, rfl⟩
  | @submit g m sp call behind o hsp hcall =>
    have hold := hs.sp g
    rw [hsp] at hold
    obtain ⟨⟨e, he, r, hrouted, rfl⟩, hrest⟩ := List.forall_mem_cons.mp hold
    refine { hs with sp := forall_mem_update messages hrest hs.sp, calls := ?_ }
    exact forall_mem_concat hs.calls ⟨e, he, r, hrouted, behind, _, _, hcall, rfl⟩

theorem Inv.step (hs : Inv setup s) {a : Action} (h : step setup s a = some t) : Inv setup t := by
  rcases change_or_less h with hchange | hless
  · exact hs.change hchange
  · exact hs.less hless

/-! ## The calls of `cmpp_submit` -/

/-- The way that a packet has taken from ismg to a gateway. -/
def Setup.Takes (setup : Setup) (e : Accepted) (g : Int32) (way : Way) : Prop :=
  way.get = setup.get ∧ way.account = setup.session e.session ∧ way.iconv = setup.iconv ∧
    way.gateway = setup.gateway g

theorem Setup.Called.uplink {e : Accepted} {c : Call} (h : setup.Called e c) :
    ∃ way, setup.Takes e c.gateway way ∧ uplink way e.msgId e.pack = some (c.call, c.cached) ∧
      ∃ phone : CString 20, phone.text = c.call.phone ∧
        setup.Leads (setup.account e) c.gateway phone := by
  obtain ⟨r, ⟨hleads, m, ⟨env, alloc, hchecks⟩, rfl⟩, behind, sequenceId, confirmed, hcall,
    hcached⟩ := h
  refine ⟨⟨setup.get, setup.session e.session, env, alloc, fun _ => true, setup.iconv,
    setup.gateway c.gateway, behind, confirmed, sequenceId⟩, ⟨rfl, rfl, rfl, rfl⟩, ?_, _,
    (Sp.Sender.submitCall_phone hcall).symm, hleads⟩
  have hqueued : Server.passChecks env alloc (packSubmit (Mt.lambPushLoop
      (Ismg.lambWorkLoop setup.get (setup.session e.session) e.msgId e.pack))) = .ok m := hchecks
  simp only [Relay.uplink, hqueued, if_true]
  rw [hcall, hcached]
  rfl

/-- One account with one channel. -/
def openSetup : Setup where
  get := openWay.get
  iconv := openWay.iconv
  session _ := openWay.account
  connection _ := ⟨1, [⟨5, lambCmcc⟩]⟩
  gateway _ := openWay.gateway

def openRun : List Action :=
  [.register 5 true, .accept 0 7 (hiTo (ascii "13800138000")), .push 0 true true,
    .pull 1 ⟨true, true, true⟩, .check 1 openWay.env openWay.alloc, .send 1 0, .route 0 true,
    .append 0 true, .settle 1, .request 5 ⟨true, true, true⟩, .submit 5 [] ⟨1, false, false⟩]

end LambGateway.Relay.Platform
