import LambGateway.QueueServer.Pool
import LambGateway.QueueServer.Push
import LambGateway.Server.WorkLoop

/-!
# Routing in the scheduler

A message goes to the first channel whose operators include that of the phone and whose queue
has room. The loop over the channels keeps four flags, from which the answer is taken.
-/

namespace LambGateway.QueueServer.Routing

open Framework Pool
open Server (Answer)

/-- `lamb_channel_t`, as far as the scheduler reads it. -/
structure LambChannel where
  id : Int32
  operator : Int32

def lambCmcc : Int32 := 1

def lambCtcc : Int32 := 2

def lambCucc : Int32 := 4

def lambMvno : Int32 := 8

def cmcc : List Bytes :=
  ["134", "135", "136", "137", "138", "139", "147", "150", "151", "152", "157", "158", "159",
    "178", "182", "183", "184", "187", "188", "198"].map ascii

def ctcc : List Bytes :=
  ["133", "149", "153", "173", "177", "180", "181", "189", "199"].map ascii

def cucc : List Bytes :=
  ["130", "131", "132", "155", "156", "145", "175", "176", "185", "186", "166"].map ascii

/-- The numbers of an operator, `memcmp` of the first three bytes, for a channel that has it. -/
def servedBy (numbers : List Bytes) (operator : Int32) (channel : LambChannel)
    (phone : CString 20) : Bool :=
  numbers.any fun number => number.isPrefixOf phone.text && channel.operator &&& operator != 0

/-- `lamb_check_operator` -/
def lambCheckOperator (channel : LambChannel) (phone : CString 20) : Bool :=
  servedBy cmcc lambCmcc channel phone || servedBy ctcc lambCtcc channel phone ||
    servedBy cucc lambCucc channel phone || channel.operator &&& lambMvno != 0

/-- `lamb_check_province` -/
def lambCheckProvince (_channel : LambChannel) (_phone : CString 20) : Bool := true

structure Flags where
  available : Bool
  operator : Bool
  province : Bool
  completed : Bool

/-- `queue->list->len < 128` for the queue at an index. -/
def hasRoom {μ : Type} (gateway : List (Queue μ)) (q : Nat) : Bool :=
  gateway[q]?.any fun queue => queue.list.length < 128

/-- The loop over the channels. `node` says whether the node of the message is allocated. -/
def searchChannels (gateway : List (Queue LambSubmit)) (message : LambSubmit) (node : Bool) :
    List LambChannel → Flags → Flags × List (Queue LambSubmit)
  | [], flags => (flags, gateway)
  | channel :: channels, flags =>
    let flags := { flags with available := true }
    if lambCheckOperator channel message.phone then
      let flags := { flags with operator := true }
      if lambCheckProvince channel message.phone then
        let flags := { flags with province := true }
        match lambListFind gateway channel.id with
        | some q =>
          if hasRoom gateway q then
            ({ flags with completed := true },
              if node then lambQueuePush gateway q message else gateway)
          else searchChannels gateway message node channels flags
        | none => searchChannels gateway message node channels flags
      else searchChannels gateway message node channels flags
    else searchChannels gateway message node channels flags

def answer (flags : Flags) : Answer :=
  if flags.completed then .ok
  else if !flags.available then .noroute
  else if !flags.operator || !flags.province then .reject
  else .busy

/-- A `LAMB_SUBMIT` in `lamb_push_loop`: there is no answer if the record is not allocated. -/
def lambPushLoop (gateway : List (Queue LambSubmit)) (channels : List LambChannel)
    (submit : Submit) (record node : Bool) : Option Answer × List (Queue LambSubmit) :=
  if record then
    let message := Scheduler.lambPushLoop submit
    let r := searchChannels gateway message node channels ⟨false, false, false, false⟩
    (some (answer r.1), r.2)
  else (none, gateway)

/-! ## The channel that takes a message -/

/-- The channel accepts the phone and has a registered queue with room. -/
def Takes {μ : Type} (gateway : List (Queue μ)) (phone : CString 20) (channel : LambChannel) :
    Prop :=
  lambCheckOperator channel phone = true ∧
    ∃ queue, gateway.find? (fun queue => queue.id == channel.id) = some queue ∧
      queue.list.length < 128

theorem takes_iff {μ : Type} (gateway : List (Queue μ)) (phone : CString 20)
    (channel : LambChannel) :
    Takes gateway phone channel ↔ lambCheckOperator channel phone = true ∧
      ∃ q, lambListFind gateway channel.id = some q ∧ hasRoom gateway q = true := by
  apply and_congr_right
  intro _
  rw [List.find?_eq_bind_findIdx?_getElem?]
  constructor
  · intro ⟨queue, hqueue, hlen⟩
    obtain ⟨q, hq, hget⟩ := Option.bind_eq_some_iff.mp hqueue
    refine ⟨q, hq, ?_⟩
    rw [hasRoom, hget]
    exact decide_eq_true hlen
  · intro ⟨q, hq, hroom⟩
    obtain ⟨queue, hget, hlen⟩ := (Option.any_eq_true _ _).mp hroom
    exact ⟨queue, Option.bind_eq_some_iff.mpr ⟨q, hq, hget⟩, of_decide_eq_true hlen⟩

section Search

variable {gateway : List (Queue LambSubmit)} {message : LambSubmit} (node : Bool)

/-- A channel that does not take the message leaves its mark in the flags. -/
theorem searchChannels_skip {channel : LambChannel} (channels : List LambChannel) (flags : Flags)
    (h : ¬ Takes gateway message.phone channel) :
    searchChannels gateway message node (channel :: channels) flags =
      searchChannels gateway message node channels
        { flags with
          available := true
          operator := flags.operator || lambCheckOperator channel message.phone
          province := flags.province || lambCheckOperator channel message.phone } := by
  rw [takes_iff] at h
  rw [searchChannels]
  cases haccepts : lambCheckOperator channel message.phone with
  | false => simp
  | true =>
    simp only [lambCheckProvince, if_true, Bool.or_true]
    split
    · next q hq =>
      have hfull : ¬ hasRoom gateway q = true := fun hroom => h ⟨haccepts, q, hq, hroom⟩
      rw [if_neg hfull]
    · rfl

theorem searchChannels_take {channel : LambChannel} (channels : List LambChannel) (flags : Flags)
    (h : Takes gateway message.phone channel) :
    ∃ q, lambListFind gateway channel.id = some q ∧
      searchChannels gateway message node (channel :: channels) flags =
        (⟨true, true, true, true⟩,
          if node then lambQueuePush gateway q message else gateway) := by
  obtain ⟨haccepts, q, hq, hroom⟩ := (takes_iff gateway message.phone channel).mp h
  refine ⟨q, hq, ?_⟩
  simp only [searchChannels, haccepts, lambCheckProvince, hq, hroom, if_true]

/-- Without a channel that takes the message the flags tell whether there are channels, and
whether any of them accepts the phone. -/
theorem searchChannels_none {channels : List LambChannel} {flags : Flags}
    (h : ∀ channel ∈ channels, ¬ Takes gateway message.phone channel) :
    searchChannels gateway message node channels flags =
      ({ flags with
          available := flags.available || !channels.isEmpty
          operator := flags.operator || channels.any (lambCheckOperator · message.phone)
          province := flags.province || channels.any (lambCheckOperator · message.phone) },
        gateway) := by
  induction channels generalizing flags with
  | nil => simp [searchChannels]
  | cons channel channels ih =>
    rw [searchChannels_skip node _ _ (h channel List.mem_cons_self),
      ih fun c hc => h c (List.mem_cons_of_mem _ hc)]
    simp [Bool.or_assoc]

/-- The channels before the one that takes the message do not matter. -/
theorem searchChannels_first {front : List LambChannel} {channel : LambChannel}
    (rest : List LambChannel) (flags : Flags) (hfront : ∀ c ∈ front, ¬ Takes gateway message.phone c)
    (h : Takes gateway message.phone channel) :
    ∃ q, lambListFind gateway channel.id = some q ∧
      searchChannels gateway message node (front ++ channel :: rest) flags =
        (⟨true, true, true, true⟩,
          if node then lambQueuePush gateway q message else gateway) := by
  induction front generalizing flags with
  | nil => exact searchChannels_take node rest flags h
  | cons c front ih =>
    rw [List.cons_append, searchChannels_skip node _ _ (hfront c List.mem_cons_self)]
    exact ih _ fun c hc => hfront c (List.mem_cons_of_mem _ hc)

end Search

theorem exists_first {channels : List LambChannel} {p : LambChannel → Prop}
    (h : ∃ channel ∈ channels, p channel) :
    ∃ front channel rest, channels = front ++ channel :: rest ∧ (∀ c ∈ front, ¬ p c) ∧
      p channel := by
  classical
  have hfound : (channels.find? (p ·)).isSome := by simpa using h
  obtain ⟨channel, hchannel⟩ := Option.isSome_iff_exists.mp hfound
  obtain ⟨hp, front, rest, hsplit, hfront⟩ := List.find?_eq_some_iff_append.mp hchannel
  exact ⟨front, channel, rest, hsplit, by simpa using hfront, by simpa using hp⟩

/-- The answer is `LAMB_OK` also if there is no node for the message. -/
theorem lambPushLoop_first {gateway : List (Queue LambSubmit)} {front : List LambChannel}
    {channel : LambChannel} {submit : Submit} (rest : List LambChannel) (node : Bool)
    (hfront : ∀ c ∈ front, ¬ Takes gateway (Scheduler.lambPushLoop submit).phone c)
    (h : Takes gateway (Scheduler.lambPushLoop submit).phone channel) :
    ∃ q, lambListFind gateway channel.id = some q ∧
      lambPushLoop gateway (front ++ channel :: rest) submit true node =
        (some .ok,
          if node then lambQueuePush gateway q (Scheduler.lambPushLoop submit) else gateway) := by
  obtain ⟨q, hq, hsearch⟩ :=
    searchChannels_first node rest ⟨false, false, false, false⟩ hfront h
  refine ⟨q, hq, ?_⟩
  simp only [lambPushLoop, hsearch, if_true]
  rfl

theorem lambPushLoop_none {gateway : List (Queue LambSubmit)} {channels : List LambChannel}
    (submit : Submit) (node : Bool)
    (h : ∀ channel ∈ channels, ¬ Takes gateway (Scheduler.lambPushLoop submit).phone channel) :
    lambPushLoop gateway channels submit true node =
      (some (if channels.isEmpty then .noroute
        else if channels.any (lambCheckOperator · (Scheduler.lambPushLoop submit).phone) then .busy
        else .reject), gateway) := by
  simp only [lambPushLoop, searchChannels_none node h, if_true, answer]
  cases channels.isEmpty <;>
    cases channels.any (lambCheckOperator · (Scheduler.lambPushLoop submit).phone) <;> rfl

theorem refusal_iff (channels : List LambChannel) (accepts : LambChannel → Bool) :
    let refusal := if channels.isEmpty then Answer.noroute
      else if channels.any accepts then .busy else .reject
    (refusal = .noroute ↔ channels = []) ∧
      (refusal = .reject ↔ channels ≠ [] ∧ ∀ channel ∈ channels, accepts channel = false) ∧
      (refusal = .busy ↔ ∃ channel ∈ channels, accepts channel = true) := by
  cases channels with
  | nil => simp
  | cons channel channels =>
    have hall : (∀ c ∈ channel :: channels, accepts c = false) ↔
        (channel :: channels).any accepts = false := by
      simp
    rw [hall, ← List.any_eq_true]
    cases (channel :: channels).any accepts <;> simp

/-- The message goes to the tail of the queue of the first channel that takes it, and to no other
queue; the answer is `LAMB_OK` if there is one. If there is none no queue changes, and the answer
tells whether there are channels and whether one of them accepts the phone. -/
theorem route_first_match (gateway : List (Queue LambSubmit)) (channels : List LambChannel)
    (submit : Submit) :
    let phone := (Scheduler.lambPushLoop submit).phone
    let r := lambPushLoop gateway channels submit true true
    (r.1 = some .ok ↔ ∃ channel ∈ channels, Takes gateway phone channel) ∧
      (∀ front channel rest, channels = front ++ channel :: rest →
        (∀ c ∈ front, ¬ Takes gateway phone c) → Takes gateway phone channel →
          ∃ before queue after, gateway = before ++ queue :: after ∧ queue.id = channel.id ∧
            (∀ other ∈ before, other.id ≠ channel.id) ∧
            r.2 = before ++
              { queue with list := queue.list ++ [Scheduler.lambPushLoop submit] } :: after) ∧
      ((∀ channel ∈ channels, ¬ Takes gateway phone channel) →
        r.2 = gateway ∧
          (r.1 = some .noroute ↔ channels = []) ∧
          (r.1 = some .reject ↔
            channels ≠ [] ∧ ∀ channel ∈ channels, lambCheckOperator channel phone = false) ∧
          (r.1 = some .busy ↔
            ∃ channel ∈ channels, lambCheckOperator channel phone = true)) := by
  intro phone r
  refine ⟨?_, ?_, ?_⟩
  · by_cases hex : ∃ channel ∈ channels, Takes gateway phone channel
    · obtain ⟨front, channel, rest, rfl, hfront, htakes⟩ := exists_first hex
      obtain ⟨q, -, hr⟩ := lambPushLoop_first rest true hfront htakes
      exact iff_of_true (congrArg Prod.fst hr) hex
    · have hr := lambPushLoop_none submit true
        fun channel hc htakes => hex ⟨channel, hc, htakes⟩
      apply iff_of_false _ hex
      rw [show r = _ from hr]
      dsimp only
      (repeat' split) <;> exact fun h => nomatch h
  · rintro front channel rest rfl hfront htakes
    obtain ⟨q, hq, hr⟩ := lambPushLoop_first rest true hfront htakes
    obtain ⟨before, queue, after, rfl, rfl, hid, hbefore⟩ := lambListFind_eq_some hq
    refine ⟨before, queue, after, rfl, hid, hbefore, ?_⟩
    rw [if_pos rfl, lambQueuePush_append] at hr
    exact congrArg Prod.snd hr
  · intro hnone
    have hr := lambPushLoop_none submit true hnone
    rw [show r = _ from hr]
    simp only [Option.some.injEq, true_and]
    exact refusal_iff channels _

end LambGateway.QueueServer.Routing
