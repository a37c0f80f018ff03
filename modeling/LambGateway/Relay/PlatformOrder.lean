import LambGateway.Framework.InOrder
import LambGateway.Relay.Platform

/-!
# The order of an account's messages

Behind a client's session there is one queue after the other, up to the call of `cmpp_submit` for
a gateway. An account's messages cannot overtake each other there as long as its client has one
session at a time, and its server one connection to the scheduler.
-/

namespace LambGateway.Relay.Platform

open Framework QueueServer Routing Pool
open scoped List

variable {setup : Setup} {s t : State}

/-- Where a message can be, in the order of its way back. -/
inductive Place where
  | called (g : Int32)
  | sp (g : Int32)
  | gateway (g : Int32)
  | holding (d : Nat)
  | wire (d : Nat)
  | work (a : Int32)
  | sent (a : Int32)
  | queue (a : Int32)
  | pipe (c : Nat)
  deriving DecidableEq

def tags (s : State) : Place → List Tag
  | .called g => (s.calls.filter (·.gateway = g)).map fun c => (c.cached.account, c.cached.id)
  | .sp g => (messages (s.sp g)).map tag
  | .gateway g => (queueOf s.gateways g).map recordTag
  | .holding d => (s.holding d).toList.map fun p => recordTag p.1
  | .wire d => (s.wire d).map tag
  | .work a => (s.work a).toList.map fun p => tag p.1
  | .sent a => (messages (s.mt a).sent).map tag
  | .queue a => (s.mt a).queue.map recordTag
  | .pipe c => (s.pipe c).map tag

def acceptedTags (setup : Setup) (s : State) : List Tag :=
  s.accepted.map fun e => (setup.account e, e.msgId)

/-! ## The tag of a message stays the same -/

theorem tag_checks {env : Server.Env} {alloc : Server.Allocation} {m m' : Submit}
    (h : Server.passChecks env alloc m = .ok m') : tag m' = tag m := by
  obtain ⟨msgfmt, length, content, rfl⟩ := Server.convert_eq_ok (Server.passChecks_eq_ok h)
  rfl

theorem Setup.Checked.tag {e : Accepted} {m : Submit} (h : setup.Checked e m) :
    Platform.tag m = (setup.account e, e.msgId) := by
  obtain ⟨env, alloc, hchecks⟩ := h
  exact tag_checks hchecks

theorem Setup.Routed.tag {e : Accepted} {g : Int32} {r : LambSubmit} (h : setup.Routed e g r) :
    recordTag r = (setup.account e, e.msgId) := by
  obtain ⟨-, m, hchecked, rfl⟩ := h
  exact hchecked.tag

/-- An account's places hold nothing of another account. -/
theorem Inv.pipe_account (hi : Inv setup s) (c : Nat) :
    ∀ t ∈ tags s (.pipe c), t.1 = (setup.session c).id := by
  intro t ht
  obtain ⟨m, hm, rfl⟩ := List.mem_map.mp ht
  obtain ⟨e, -, rfl, rfl⟩ := hi.pipe c m hm
  rfl

theorem Inv.work_account (hi : Inv setup s) (a : Int32) : ∀ t ∈ tags s (.work a), t.1 = a := by
  intro t ht
  obtain ⟨p, hp, rfl⟩ := List.mem_map.mp ht
  obtain ⟨e, -, haccount, hchecked⟩ := hi.work a p (Option.mem_toList.mp hp)
  rw [hchecked.tag]
  exact haccount

theorem Inv.wire_account (hi : Inv setup s) (d : Nat) :
    ∀ t ∈ tags s (.wire d), t.1 = (setup.connection d).account := by
  intro t ht
  obtain ⟨m, hm, rfl⟩ := List.mem_map.mp ht
  obtain ⟨e, -, haccount, hchecked⟩ := hi.wire d m hm
  rw [hchecked.tag]
  exact haccount

theorem Inv.holding_account (hi : Inv setup s) (d : Nat) :
    ∀ t ∈ tags s (.holding d), t.1 = (setup.connection d).account := by
  intro t ht
  obtain ⟨p, hp, rfl⟩ := List.mem_map.mp ht
  obtain ⟨e, -, haccount, hrouted⟩ := hi.holding d p (Option.mem_toList.mp hp)
  rw [hrouted.tag]
  exact haccount

/-! ## Steps as moves -/

theorem tags_less (h : Less s t) (r : Place) : tags t r <+ tags s r := by
  cases r with
  | called g =>
    rw [tags, tags, h.calls]
  | sp g => exact (h.sp g).map _
  | gateway g => exact (h.gateways g).map _
  | holding d =>
    rw [tags, tags]
    rcases h.holding d with heq | hnone
    · rw [heq]
    · rw [hnone]
      exact List.nil_sublist _
  | wire d => exact (h.wire d).map _
  | work a =>
    rw [tags, tags]
    rcases h.work a with heq | hnone
    · rw [heq]
    · rw [hnone]
      exact List.nil_sublist _
  | sent a => exact (h.sent a).map _
  | queue a => exact (h.queue a).map _
  | pipe c => exact (h.pipe c).map _

/-- From where to where messages go. -/
inductive Edge (setup : Setup) : Place → Place → Prop
  | push (c : Nat) : Edge setup (.pipe c) (.queue (setup.session c).id)
  | pull (a : Int32) : Edge setup (.queue a) (.sent a)
  | check (a : Int32) : Edge setup (.sent a) (.work a)
  | route (d : Nat) : Edge setup (.wire d) (.holding d)
  | append (d : Nat) (g : Int32) : Edge setup (.holding d) (.gateway g)
  | request (g : Int32) : Edge setup (.gateway g) (.sp g)
  | submit (g : Int32) : Edge setup (.sp g) (.called g)

/-- Every step accepts a packet, moves a message, has it sent, or loses some. -/
inductive Flow (setup : Setup) (s t : State) : Prop
  | accept (c : Nat) (id : UInt64)
    (haccepted : acceptedTags setup t = acceptedTags setup s ++ [((setup.session c).id, id)])
    (hpipe : tags t (.pipe c) = tags s (.pipe c) ++ [((setup.session c).id, id)])
    (hother : ∀ r, r ≠ .pipe c → tags t r = tags s r)
  | move {p q : Place} (x : Tag) (hedge : Edge setup p q) (haccepted : t.accepted = s.accepted)
    (hmoved : Moved (tags s) (tags t) p q x)
  | send (d : Nat) (x : Tag) (haccepted : t.accepted = s.accepted)
    (hcopied : Copied (tags s) (tags t) (.work (setup.connection d).account) (.wire d) x)
  | lose (haccepted : t.accepted = s.accepted) (hless : ∀ r, tags t r <+ tags s r)

theorem moved_push {c : Nat} {m : Submit} {pipe : List Submit} (hpipe : s.pipe c = m :: pipe) :
    Moved (tags s) (tags
      { s with
        pipe := Function.update s.pipe c pipe
        mt := Function.update s.mt (setup.session c).id
          { s.mt (setup.session c).id with
            queue := (s.mt (setup.session c).id).queue ++ [Mt.lambPushLoop m] }
        pushed := s.pushed ++ [(c, (setup.session c).id, tag m)] })
      (.pipe c) (.queue (setup.session c).id) (tag m) where
  head := by simp [tags, hpipe]
  last := by
    simp [tags]
    rfl
  other r hp hq := by
    cases r with
    | pipe c' => simp_all [tags, Function.update_of_ne]
    | queue a => simp_all [tags, Function.update_of_ne]
    | sent a =>
      by_cases ha : a = (setup.session c).id
      · subst ha
        simp [tags]
      · simp [tags, ha]
    | called _ | sp _ | gateway _ | holding _ | wire _ | work _ => rfl

theorem moved_pull {a : Int32} {r : LambSubmit} {queue : List LambSubmit}
    (hqueue : (s.mt a).queue = r :: queue) :
    Moved (tags s) (tags
      { s with mt := Function.update s.mt a ⟨queue, (s.mt a).sent ++ [submitFrame r]⟩ })
      (.queue a) (.sent a) (recordTag r) where
  head := by simp [tags, hqueue]
  last := by
    simp [tags]
    rfl
  other r' hp hq := by
    cases r' with
    | queue a' => simp_all [tags, Function.update_of_ne]
    | sent a' => simp_all [tags, Function.update_of_ne]
    | called _ | sp _ | gateway _ | holding _ | wire _ | work _ | pipe _ => rfl

theorem moved_check {a : Int32} {m m' : Submit} {sent : List Frame} {env : Server.Env}
    {alloc : Server.Allocation} (hwork : s.work a = none)
    (hsent : (s.mt a).sent = .submit m :: sent) (hchecks : Server.passChecks env alloc m = .ok m') :
    Moved (tags s) (tags
      { s with
        mt := Function.update s.mt a { s.mt a with sent := sent }
        work := Function.update s.work a (some (m', false)) })
      (.sent a) (.work a) (tag m) where
  head := by simp [tags, hsent]
  last := by simp [tags, hwork, tag_checks hchecks]
  other r hp hq := by
    cases r with
    | queue a' =>
      by_cases ha : a' = a
      · subst ha
        simp [tags]
      · simp [tags, ha]
    | sent a' => simp_all [tags, Function.update_of_ne]
    | work a' => simp_all [tags, Function.update_of_ne]
    | called _ | sp _ | gateway _ | holding _ | wire _ | pipe _ => rfl

theorem copied_send {a : Int32} {d : Nat} {m : Submit} {again : Bool}
    (hwork : s.work a = some (m, again)) :
    Copied (tags s) (tags
      { s with
        work := Function.update s.work a (some (m, true))
        wire := Function.update s.wire d (s.wire d ++ [m])
        sends := s.sends ++ [(a, d, again, tag m)] })
      (.work a) (.wire d) (tag m) where
  head := ⟨[], by simp [tags, hwork], by simp [tags]⟩
  last := by simp [tags]
  other r hp hq := by
    cases r with
    | wire d' => simp_all [tags, Function.update_of_ne]
    | work a' => simp_all [tags, Function.update_of_ne]
    | called _ | sp _ | gateway _ | holding _ | sent _ | queue _ | pipe _ => rfl

theorem moved_route {d : Nat} {m : Submit} {wire : List Submit} {channel : LambChannel}
    (hholding : s.holding d = none) (hwire : s.wire d = m :: wire) :
    Moved (tags s) (tags
      { s with
        wire := Function.update s.wire d wire
        holding := Function.update s.holding d (some (Scheduler.lambPushLoop m, channel.id)) })
      (.wire d) (.holding d) (tag m) where
  head := by simp [tags, hwire]
  last := by
    simp [tags, hholding]
    rfl
  other r hp hq := by
    cases r with
    | holding d' => simp_all [tags, Function.update_of_ne]
    | wire d' => simp_all [tags, Function.update_of_ne]
    | called _ | sp _ | gateway _ | work _ | sent _ | queue _ | pipe _ => rfl

theorem moved_append {d : Nat} {r : LambSubmit} {g : Int32} {q : Nat}
    (hholding : s.holding d = some (r, g)) (hq : lambListFind s.gateways g = some q) :
    Moved (tags s) (tags
      { s with
        holding := Function.update s.holding d none
        gateways := lambQueuePush s.gateways q r
        placed := s.placed ++ [(d, g, recordTag r)] })
      (.holding d) (.gateway g) (recordTag r) where
  head := by simp [tags, hholding]
  last := by simp [tags, queueOf_push hq]
  other r' hp hq' := by
    cases r' with
    | holding d' => simp_all [tags, Function.update_of_ne]
    | gateway g' => simp_all [tags, queueOf_push hq]
    | called _ | sp _ | wire _ | work _ | sent _ | queue _ | pipe _ => rfl

theorem moved_request {g : Int32} {q : Nat} {r : LambSubmit} {rest : List LambSubmit}
    (hq : lambListFind s.gateways g = some q) (hqueue : queueOf s.gateways g = r :: rest) :
    Moved (tags s) (tags
      { s with
        gateways := s.gateways.modify q fun queue => { queue with list := rest }
        sp := Function.update s.sp g (s.sp g ++ [submitFrame r]) })
      (.gateway g) (.sp g) (recordTag r) where
  head := by simp [tags, queueOf_modify hq fun _ => rest, hqueue]
  last := by
    simp [tags]
    rfl
  other r' hp hq' := by
    cases r' with
    | gateway g' => simp_all [tags, queueOf_modify hq fun _ => rest]
    | sp g' => simp_all [tags, Function.update_of_ne]
    | called _ | holding _ | wire _ | work _ | sent _ | queue _ | pipe _ => rfl

theorem moved_submit {g : Int32} {m : Submit} {sp : List Frame} {call : Sp.Sender.SubmitCall}
    (hsp : s.sp g = .submit m :: sp) (sender : Int32 → Sp.Sender.State) :
    Moved (tags s) (tags
      { s with
        sp := Function.update s.sp g sp
        sender := sender
        calls := s.calls ++ [⟨g, call, (Sp.Sender.confirm (s.sender g).confirmed m).correlation⟩] })
      (.sp g) (.called g) (tag m) where
  head := by simp [tags, hsp]
  last := by
    simp [tags]
    rfl
  other r hp hq := by
    cases r with
    | called g' => 
      have hne : g ≠ g' := fun he => hq (he ▸ rfl)
      simp [tags, hne]
    | sp g' => simp_all [tags, Function.update_of_ne]
    | gateway _ | holding _ | wire _ | work _ | sent _ | queue _ | pipe _ => rfl

theorem flow_of_change (h : Change setup s t) : Flow setup s t := by
  cases h with
  | accept c msgId pack =>
    refine .accept c msgId (by simp [acceptedTags, Setup.account]) ?_ fun r hr => ?_
    · simp [tags]
      rfl
    · cases r with
      | pipe c' => simp_all [tags, Function.update_of_ne]
      | called _ | sp _ | gateway _ | holding _ | wire _ | work _ | sent _ | queue _ => rfl
  | push hpipe => exact .move _ (.push _) rfl (moved_push hpipe)
  | pull hqueue => exact .move _ (.pull _) rfl (moved_pull hqueue)
  | check env alloc hwork hsent hchecks =>
    exact .move _ (.check _) rfl (moved_check hwork hsent hchecks)
  | @send a d m again hwork hconnection =>
    subst hconnection
    exact .send d _ rfl (copied_send hwork)
  | route hholding hwire => exact .move _ (.route _) rfl (moved_route hholding hwire)
  | append hholding hq => exact .move _ (.append _ _) rfl (moved_append hholding hq)
  | request hq hqueue => exact .move _ (.request _) rfl (moved_request hq hqueue)
  | submit behind o hsp hcall => exact .move _ (.submit _) rfl (moved_submit hsp _)

theorem flow_of_step {a : Action} (h : step setup s a = some t) : Flow setup s t := by
  rcases change_or_less h with hchange | hless
  · exact flow_of_change hchange
  · exact .lose hless.accepted (tags_less hless)

/-! ## One account -/

/-- The messages of one account. -/
def own (a : Int32) (tags : List Tag) : List Tag := tags.filter (·.1 = a)

theorem own_append (a : Int32) (l l' : List Tag) : own a (l ++ l') = own a l ++ own a l' :=
  List.filter_append ..

theorem own_cons_self {a : Int32} {x : Tag} (h : x.1 = a) (l : List Tag) :
    own a (x :: l) = x :: own a l := by
  simp [own, h]

theorem own_cons_other {a : Int32} {x : Tag} (h : x.1 ≠ a) (l : List Tag) :
    own a (x :: l) = own a l := by
  simp [own, h]

theorem own_of_other {a b : Int32} {l : List Tag} (h : ∀ t ∈ l, t.1 = b) (hne : b ≠ a) :
    own a l = [] := by
  rw [own, List.filter_eq_nil_iff]
  intro t ht
  simpa [h t ht] using hne

theorem own_moved {a : Int32} {f f' : Place → List Tag} {p q : Place} {x : Tag}
    (h : Moved f f' p q x) (hx : x.1 = a) :
    Moved (fun r => own a (f r)) (fun r => own a (f' r)) p q x where
  head := by rw [h.head, own_cons_self hx]
  last := by
    rw [h.last, own_append, own_cons_self hx]
    rfl
  other r hp hq := by rw [h.other r hp hq]

theorem own_moved_other {a : Int32} {f f' : Place → List Tag} {p q : Place} {x : Tag}
    (h : Moved f f' p q x) (hx : x.1 ≠ a) (r : Place) : own a (f' r) <+ own a (f r) := by
  by_cases hq : r = q
  · rw [hq, h.last, own_append, own_cons_other hx]
    exact (List.append_nil _).symm ▸ .refl _
  · by_cases hp : r = p
    · rw [hp, h.head, own_cons_other hx]
    · rw [h.other r hp hq]

theorem own_copied {a : Int32} {f f' : Place → List Tag} {p q : Place} {x : Tag}
    (h : Copied f f' p q x) (hx : x.1 = a) :
    Copied (fun r => own a (f r)) (fun r => own a (f' r)) p q x where
  head := by
    obtain ⟨rest, hold, hnew⟩ := h.head
    exact ⟨own a rest, by rw [hold, own_cons_self hx], by rw [hnew, own_cons_self hx]⟩
  last := by
    rw [h.last, own_append, own_cons_self hx]
    rfl
  other r hp hq := by rw [h.other r hp hq]

theorem own_copied_other {a : Int32} {f f' : Place → List Tag} {p q : Place} {x : Tag}
    (h : Copied f f' p q x) (hx : x.1 ≠ a) (r : Place) : own a (f' r) <+ own a (f r) := by
  by_cases hq : r = q
  · rw [hq, h.last, own_append, own_cons_other hx]
    exact (List.append_nil _).symm ▸ .refl _
  · by_cases hp : r = p
    · obtain ⟨rest, hold, hnew⟩ := h.head
      rw [hp, hold, hnew]
    · rw [h.other r hp hq]

/-! ## One session, one connection -/

/-- Nothing is on its way from the connection to a queue. -/
def Idle (s : State) (d : Nat) : Prop := s.wire d = [] ∧ s.holding d = none

/-- No account has messages in flight on two sessions, or on two connections to the scheduler. -/
structure OneAtATime (setup : Setup) (s : State) : Prop where
  session : ∀ c c', c ≠ c' → (setup.session c).id = (setup.session c').id →
    s.pipe c = [] ∨ s.pipe c' = []
  connection : ∀ d d', d ≠ d' → (setup.connection d).account = (setup.connection d').account →
    Idle s d ∨ Idle s d'

/-- From a session to a gateway, over a connection to the scheduler: the last place first. -/
def path (a g : Int32) (d c : Nat) : List Place :=
  [.called g, .sp g, .gateway g, .holding d, .wire d, .work a, .sent a, .queue a, .pipe c]

theorem path_nodup (a g : Int32) (d c : Nat) : (path a g d c).Nodup := by
  simp [path]

/-- Along every path of an account there stands what has been accepted, in this order. -/
def Ordered (setup : Setup) (s : State) : Prop :=
  ∀ a g d c, InOrder (own a (acceptedTags setup s))
    ((path a g d c).flatMap fun r => own a (tags s r))

theorem pipe_nil_of_other (hi : Inv setup s) (hone : OneAtATime setup s) {c c' : Nat} {x : Tag}
    {rest : List Tag} (hc : tags s (.pipe c) = x :: rest) (hne : c' ≠ c) :
    own (setup.session c).id (tags s (.pipe c')) = [] := by
  by_cases hid : (setup.session c').id = (setup.session c).id
  · rcases hone.session c' c hne hid with hnil | hnil
    · rw [tags, hnil]
      rfl
    · rw [tags, hnil] at hc
      cases hc
  · exact own_of_other (hi.pipe_account c') hid

theorem connection_nil_of_other (hi : Inv setup s) (hone : OneAtATime setup s) {d d' : Nat}
    {x : Tag} {rest : List Tag} (hd : tags s (.holding d) = x :: rest) (hne : d' ≠ d) :
    own (setup.connection d).account (tags s (.holding d')) = [] ∧
      own (setup.connection d).account (tags s (.wire d')) = [] := by
  by_cases haccount : (setup.connection d').account = (setup.connection d).account
  · rcases hone.connection d' d hne haccount with ⟨hwire, hholding⟩ | ⟨-, hholding⟩
    · rw [tags, tags, hwire, hholding]
      exact ⟨rfl, rfl⟩
    · rw [tags, hholding] at hd
      cases hd
  · exact ⟨own_of_other (hi.holding_account d') haccount,
      own_of_other (hi.wire_account d') haccount⟩

/-- A message goes on to the next place of a path. -/
theorem Ordered.along (hs : Ordered setup s) {a g : Int32} {d c : Nat} {p q : Place} {x : Tag}
    (hmoved : Moved (fun r => own a (tags s r)) (fun r => own a (tags t r)) p q x)
    (front behind : List Place) (hpath : path a g d c = front ++ q :: p :: behind) :
    InOrder (own a (acceptedTags setup s)) ((path a g d c).flatMap fun r => own a (tags t r)) := by
  have hnodup := path_nodup a g d c
  have hold := hs a g d c
  rw [hpath] at hnodup hold ⊢
  rw [hmoved.eq_of_along front behind hnodup]
  exact hold

/-- A message of the account moves: what it passes on the way, it has stood behind before. -/
theorem Ordered.move (hs : Ordered setup s) (hi : Inv setup s) (hone : OneAtATime setup s)
    {p q : Place} {x : Tag} (hedge : Edge setup p q) (hmoved : Moved (tags s) (tags t) p q x)
    {a : Int32} (hx : x.1 = a) (g : Int32) (d c : Nat) :
    InOrder (own a (acceptedTags setup s)) ((path a g d c).flatMap fun r => own a (tags t r)) := by
  have hown := own_moved hmoved hx
  by_cases hq : q ∈ path a g d c
  on_goal 2 => exact (hs a g d c).mono_right (hown.sublist_of_leave hq)
  cases hedge with
  | push c₀ =>
    obtain rfl : (setup.session c₀).id = a := by simpa [path] using hq
    by_cases hc : c = c₀
    · subst hc
      exact hs.along hown [.called g, .sp g, .gateway g, .holding d, .wire d, .work _, .sent _] []
        rfl
    · have hempty := pipe_nil_of_other hi hone hmoved.head hc
      have hjoin := hown.sublist_of_join [.called g, .sp g, .gateway g, .holding d, .wire d,
        .work (setup.session c₀).id, .sent (setup.session c₀).id] [.pipe c] [] []
        (by simp) (by simpa using Ne.symm hc) (by simp) (by simpa using hempty)
      exact (hs (setup.session c₀).id g d c₀).mono_right hjoin
  | pull a₀ =>
    obtain rfl : a₀ = a := by simpa [path] using hq
    exact hs.along hown [.called g, .sp g, .gateway g, .holding d, .wire d, .work a₀] [.pipe c] rfl
  | check a₀ =>
    obtain rfl : a₀ = a := by simpa [path] using hq
    exact hs.along hown [.called g, .sp g, .gateway g, .holding d, .wire d] [.queue a₀, .pipe c] rfl
  | route d₀ =>
    obtain rfl : d₀ = d := by simpa [path] using hq
    exact hs.along hown [.called g, .sp g, .gateway g] [.work a, .sent a, .queue a, .pipe c] rfl
  | append d₀ g₀ =>
    obtain rfl : g₀ = g := by simpa [path] using hq
    by_cases hd : d = d₀
    · subst hd
      exact hs.along hown [.called g₀, .sp g₀] [.wire d, .work a, .sent a, .queue a, .pipe c] rfl
    · obtain rfl : (setup.connection d₀).account = a := by
        rw [← hx]
        exact (hi.holding_account d₀ x (hmoved.head ▸ List.mem_cons_self)).symm
      obtain ⟨hholding, hwire⟩ := connection_nil_of_other hi hone hmoved.head hd
      have hjoin := hown.sublist_of_join [.called g₀, .sp g₀] [.holding d, .wire d] [.wire d₀]
        [.work (setup.connection d₀).account, .sent (setup.connection d₀).account,
          .queue (setup.connection d₀).account, .pipe c]
        (by simp) (by simpa using Ne.symm hd) (by simp) (by simp [hholding, hwire])
      exact (hs _ g₀ d₀ c).mono_right hjoin
  | request g₀ =>
    obtain rfl : g₀ = g := by simpa [path] using hq
    exact hs.along hown [.called g₀]
      [.holding d, .wire d, .work a, .sent a, .queue a, .pipe c] rfl
  | submit g₀ =>
    obtain rfl : g₀ = g := by simpa [path] using hq
    exact hs.along hown []
      [.gateway g₀, .holding d, .wire d, .work a, .sent a, .queue a, .pipe c] rfl

/-- A message is sent, and stays with the server as long as it may be sent again. -/
theorem Ordered.send (hs : Ordered setup s) (hi : Inv setup s) {d₀ : Nat} {x : Tag}
    (hcopied : Copied (tags s) (tags t) (.work (setup.connection d₀).account) (.wire d₀) x)
    {a : Int32} (hx : x.1 = a) (g : Int32) (d c : Nat) :
    InOrder (own a (acceptedTags setup s)) ((path a g d c).flatMap fun r => own a (tags t r)) := by
  have hown := own_copied hcopied hx
  have hold := hs a g d c
  by_cases hd : d₀ = d
  · subst hd
    obtain rfl : (setup.connection d₀).account = a := by
      obtain ⟨rest, hwork, -⟩ := hcopied.head
      rw [← hx]
      exact (hi.work_account _ x (hwork ▸ List.mem_cons_self)).symm
    exact hown.inOrder [.called g, .sp g, .gateway g, .holding d₀] [.sent _, .queue _, .pipe c]
      (path_nodup _ g d₀ c) hold
  · have hq : Place.wire d₀ ∉ path a g d c := by simpa [path] using hd
    rw [hown.flatMap_eq hq]
    exact hold

theorem ordered_init (setup : Setup) : Ordered setup State.init := by
  intro a g d c
  have hempty : ((path a g d c).flatMap fun r => own a (tags State.init r)) = [] := by
    simp [path, tags, State.init, own, queueOf]
  rw [hempty]
  exact .nil _

theorem Ordered.flow (hs : Ordered setup s) (hi : Inv setup s) (hone : OneAtATime setup s)
    (h : Flow setup s t) : Ordered setup t := by
  intro a g d c
  have hold := hs a g d c
  cases h with
  | accept c₀ id haccepted hpipe hother =>
    rw [haccepted, own_append]
    have hfront : ([.called g, .sp g, .gateway g, .holding d, .wire d, .work a, .sent a,
        .queue a].flatMap fun r => own a (tags t r)) = [.called g, .sp g, .gateway g, .holding d,
          .wire d, .work a, .sent a, .queue a].flatMap fun r => own a (tags s r) := by
      apply List.flatMap_congr
      intro r hr
      rw [hother r fun he => by simp [he] at hr]
    have hpath (f : Place → List Tag) : (path a g d c).flatMap f = [.called g, .sp g, .gateway g,
        .holding d, .wire d, .work a, .sent a, .queue a].flatMap f ++ f (.pipe c) := by
      simp [path]
    rw [hpath, hfront]
    rw [hpath] at hold
    by_cases hc : c = c₀
    · subst hc
      rw [hpipe, own_append, ← List.append_assoc]
      exact hold.append (.refl _)
    · rw [hother (.pipe c) fun he => hc (Place.pipe.inj he)]
      exact hold.mono_left (List.sublist_append_left _ _)
  | move x hedge haccepted hmoved =>
    rw [acceptedTags, haccepted]
    by_cases hx : x.1 = a
    · exact hs.move hi hone hedge hmoved hx g d c
    · exact hold.mono_right (flatMap_sublist fun r _ => own_moved_other hmoved hx r)
  | send d₀ x haccepted hcopied =>
    rw [acceptedTags, haccepted]
    by_cases hx : x.1 = a
    · exact hs.send hi hcopied hx g d c
    · exact hold.mono_right (flatMap_sublist fun r _ => own_copied_other hcopied hx r)
  | lose haccepted hless =>
    rw [acceptedTags, haccepted]
    exact hold.mono_right (flatMap_sublist fun r _ => (hless r).filter _)

/-- On each gateway, an account's messages are submitted to the carrier in the order in which ismg
has accepted them from the client. Some may be left out, and one that the server has sent several
times may come several times, before the next; where no id was given out twice, the order says
that the places of the ids never go down. -/
theorem calls_in_order (setup : Setup) {as : List Action} {s : State}
    (hg : Guarded (step setup) (fun s _ => OneAtATime setup s) State.init as)
    (h : exec (step setup) State.init as = some s) (a g : Int32) :
    InOrder (own a (acceptedTags setup s)) (own a (tags s (.called g))) ∧
      ((own a (acceptedTags setup s)).Nodup →
        (own a (tags s (.called g))).Pairwise fun x y =>
          (own a (acceptedTags setup s)).idxOf x ≤ (own a (acceptedTags setup s)).idxOf y) := by
  have hboth : Inv setup s ∧ Ordered setup s := by
    have hkeep (s : State) (a : Action) (t : State) (hs : Inv setup s ∧ Ordered setup s)
        (hone : OneAtATime setup s) (hstep : step setup s a = some t) :
        Inv setup t ∧ Ordered setup t :=
      ⟨hs.1.step hstep, hs.2.flow hs.1 hone (flow_of_step hstep)⟩
    exact exec_invariant_of_guarded hkeep ⟨inv_init setup, ordered_init setup⟩ hg h
  have horder : InOrder (own a (acceptedTags setup s)) (own a (tags s (.called g))) := by
    refine (hboth.2 a g 0 0).mono_right ?_
    rw [path, List.flatMap_cons]
    exact List.sublist_append_left _ _
  exact ⟨horder, horder.monotone_idxOf⟩

/-- All sessions but the first, and all connections but the first, are unused. -/
def FirstOnly (s : State) : Prop :=
  (∀ c, c ≠ 0 → s.pipe c = []) ∧ ∀ d, d ≠ 0 → Idle s d

def Action.usesFirst : Action → Bool
  | .accept c _ _ | .push c _ _ | .lose (.session c) _ => c == 0
  | .send _ d | .route d _ | .append d _ | .lose (.scheduler d) _ => d == 0
  | _ => true

theorem FirstOnly.oneAtATime (h : FirstOnly s) : OneAtATime setup s where
  session c c' hne _ := by
    by_cases hc : c = 0
    · exact .inr (h.1 c' fun hc' => hne (hc.trans hc'.symm))
    · exact .inl (h.1 c hc)
  connection d d' hne _ := by
    by_cases hd : d = 0
    · exact .inr (h.2 d' fun hd' => hne (hd.trans hd'.symm))
    · exact .inl (h.2 d hd)

theorem FirstOnly.step {a : Action} (hs : FirstOnly s) (ha : a.usesFirst = true)
    (h : step setup s a = some t) : FirstOnly t := by
  have hsession (p : List Submit) : ∀ c, c ≠ 0 → Function.update s.pipe 0 p c = [] := by
    intro c hc
    rw [Function.update_of_ne hc]
    exact hs.1 c hc
  have hwire (w : List Submit) : ∀ d, d ≠ 0 → Function.update s.wire 0 w d = [] := by
    intro d hd
    rw [Function.update_of_ne hd]
    exact (hs.2 d hd).1
  have hholding (m : Option (LambSubmit × Int32)) :
      ∀ d, d ≠ 0 → Function.update s.holding 0 m d = none := by
    intro d hd
    rw [Function.update_of_ne hd]
    exact (hs.2 d hd).2
  cases a with
  | accept c msgId pack =>
    obtain rfl : c = 0 := by simpa [Action.usesFirst] using ha
    cases h
    exact ⟨hsession _, hs.2⟩
  | push c record node =>
    obtain rfl : c = 0 := by simpa [Action.usesFirst] using ha
    simp only [Platform.step] at h
    (repeat' split at h) <;> cases h <;> exact ⟨hsession _, hs.2⟩
  | send a d =>
    obtain rfl : d = 0 := by simpa [Action.usesFirst] using ha
    simp only [Platform.step] at h
    (repeat' split at h) <;> cases h
    exact ⟨hs.1, fun d hd => ⟨hwire _ d hd, (hs.2 d hd).2⟩⟩
  | route d record =>
    obtain rfl : d = 0 := by simpa [Action.usesFirst] using ha
    simp only [Platform.step] at h
    (repeat' split at h) <;> cases h
    · exact ⟨hs.1, fun d hd => ⟨hwire _ d hd, hholding _ d hd⟩⟩
    · exact ⟨hs.1, fun d hd => ⟨hwire _ d hd, (hs.2 d hd).2⟩⟩
  | append d node =>
    obtain rfl : d = 0 := by simpa [Action.usesFirst] using ha
    simp only [Platform.step] at h
    (repeat' split at h) <;> cases h <;>
      exact ⟨hs.1, fun d hd => ⟨(hs.2 d hd).1, hholding _ d hd⟩⟩
  | lose link n =>
    cases link with
    | session c =>
      obtain rfl : c = 0 := by simpa [Action.usesFirst] using ha
      cases h
      exact ⟨hsession _, hs.2⟩
    | scheduler d =>
      obtain rfl : d = 0 := by simpa [Action.usesFirst] using ha
      cases h
      exact ⟨hs.1, fun d hd => ⟨hwire _ d hd, (hs.2 d hd).2⟩⟩
    | server a | gateway g =>
      cases h
      exact hs
  | pull a o | settle a | register g alloc | check a env alloc | request g o | submit g behind o =>
    simp only [Platform.step] at h
    (repeat' split at h) <;> cases h <;> exact hs

theorem FirstOnly.guarded {as : List Action} (hs : FirstOnly s)
    (has : as.all Action.usesFirst = true) :
    Guarded (Platform.step setup) (fun s _ => OneAtATime setup s) s as := by
  induction as generalizing s with
  | nil => trivial
  | cons a as ih =>
    obtain ⟨ha, has⟩ := Bool.and_eq_true_iff.mp has
    exact ⟨hs.oneAtATime, fun t ht => ih (hs.step ha ht) has⟩

/-- The second of two messages is sent twice. -/
def repeatedRun : List Action :=
  let ok : Outcome := ⟨true, true, true⟩
  [.register 5 true, .accept 0 7 (hiTo (ascii "13800138000")),
    .accept 0 8 (hiTo (ascii "13800138001")), .push 0 true true, .push 0 true true, .pull 1 ok,
    .check 1 openWay.env openWay.alloc, .send 1 0, .route 0 true, .append 0 true, .settle 1,
    .pull 1 ok, .check 1 openWay.env openWay.alloc, .send 1 0, .send 1 0, .route 0 true,
    .append 0 true, .route 0 true, .append 0 true, .request 5 ok, .request 5 ok, .request 5 ok,
    .submit 5 [] ⟨1, false, false⟩, .submit 5 [] ⟨2, false, false⟩, .submit 5 [] ⟨3, false, false⟩]

theorem repeatedRun_calls_in_order :
    ∃ s, exec (step openSetup) State.init repeatedRun = some s ∧
      tags s (.called 5) = [(1, 7), (1, 8), (1, 8)] ∧
      InOrder (own 1 (acceptedTags openSetup s)) (own 1 (tags s (.called 5))) ∧
      ((own 1 (acceptedTags openSetup s)).Nodup →
        (own 1 (tags s (.called 5))).Pairwise fun x y =>
          (own 1 (acceptedTags openSetup s)).idxOf x ≤
            (own 1 (acceptedTags openSetup s)).idxOf y) := by
  have hrun : (exec (step openSetup) State.init repeatedRun).map (tags · (.called 5)) =
      some [(1, 7), (1, 8), (1, 8)] := by
    decide
  obtain ⟨s, hs, hcalled⟩ := Option.map_eq_some_iff.mp hrun
  have hfirst : FirstOnly State.init := ⟨fun _ _ => rfl, fun _ _ => ⟨rfl, rfl⟩⟩
  exact ⟨s, hs, hcalled, calls_in_order openSetup (hfirst.guarded (by decide)) hs 1 5⟩

end LambGateway.Relay.Platform
