import LambGateway.Framework.Ledger
import LambGateway.Relay.PlatformOrder

/-!
# How often a message is submitted

Sessions, servers, connections and gateways each hand on no message more often than they have been
given it. Only the server sends a message several times, so the calls of `cmpp_submit` for it are
bounded by what was accepted and by what was sent again.
-/

namespace LambGateway.Relay.Platform

open Framework QueueServer Routing Pool
open scoped List

variable {setup : Setup} {s t : State}

/-- The message in work, as long as it has not been sent. -/
def unsent (s : State) (a : Int32) : List Tag :=
  ((s.work a).toList.filter (!·.2)).map fun p => tag p.1

/-- What the server has sent again, because it had no answer or was told that all queues are
full. -/
def repeats (s : State) : List Tag := (s.sends.filter (·.2.2.1)).map (·.2.2.2)

def callTag (c : Call) : Tag := (c.cached.account, c.cached.id)

/-- The books of the four kinds of stations. -/
structure Books (setup : Setup) (s : State) : Prop where
  session : Balanced (s.accepted.map fun e => (e.session, (setup.account e, e.msgId)))
    (fun c => tags s (.pipe c)) (s.pushed.map fun p => (p.1, p.2.2))
  server : Balanced (s.pushed.map fun p => (p.2.1, p.2.2))
    (fun a => tags s (.queue a) ++ (tags s (.sent a) ++ unsent s a))
    ((s.sends.filter (!·.2.2.1)).map fun p => (p.1, p.2.2.2))
  connection : Balanced (s.sends.map fun p => (p.2.1, p.2.2.2))
    (fun d => tags s (.wire d) ++ tags s (.holding d)) (s.placed.map fun p => (p.1, p.2.2))
  gateway : Balanced (s.placed.map fun p => (p.2.1, p.2.2))
    (fun g => tags s (.gateway g) ++ tags s (.sp g)) (s.calls.map fun c => (c.gateway, callTag c))

theorem books_init (setup : Setup) : Books setup State.init where
  session := .empty _ fun _ => rfl
  server := .empty _ fun _ => rfl
  connection := .empty _ fun _ => rfl
  gateway := .empty _ fun _ => rfl

theorem Books.less (hs : Books setup s) (h : Less s t) : Books setup t where
  session := by
    rw [h.accepted, h.pushed]
    exact hs.session.keep fun c => (tags_less h (.pipe c)).subperm
  server := by
    rw [h.pushed, h.sends]
    refine hs.server.keep fun a => List.Sublist.subperm ?_
    refine (tags_less h (.queue a)).append ((tags_less h (.sent a)).append ?_)
    rw [unsent, unsent]
    rcases h.work a with heq | hnone
    · rw [heq]
    · rw [hnone]
      exact List.nil_sublist _
  connection := by
    rw [h.sends, h.placed]
    refine hs.connection.keep fun d => List.Sublist.subperm ?_
    exact (tags_less h (.wire d)).append (tags_less h (.holding d))
  gateway := by
    rw [h.placed, h.calls]
    refine hs.gateway.keep fun g => List.Sublist.subperm ?_
    exact (tags_less h (.gateway g)).append (tags_less h (.sp g))

/-! ## The steps -/

theorem subperm_of_eq {l l' : List Tag} (h : l = l') : l <+~ l' := h ▸ .refl l

/-- A counter at which an entry moves from one place to the next. -/
theorem subperm_of_moved {x : Tag} {front front' middle middle' : List Tag} (behind : List Tag)
    (hhead : front = x :: front') (hlast : middle' = middle ++ [x]) :
    front' ++ (middle' ++ behind) <+~ front ++ (middle ++ behind) := by
  apply List.Perm.subperm
  rw [hhead, hlast, List.perm_iff_count]
  intro y
  simp only [List.count_append, List.count_cons, List.count_nil]
  omega

theorem subperm_concat {x : Tag} {l l' : List Tag} (h : l' = l ++ [x]) (behind : List Tag) :
    l' ++ behind <+~ x :: (l ++ behind) := by
  apply List.Perm.subperm
  rw [h, List.append_assoc]
  exact List.perm_middle

theorem unsent_congr {a : Int32} (h : t.work a = s.work a) : unsent t a = unsent s a := by
  rw [unsent, h, unsent]

theorem Books.accept (hs : Books setup s) (c : Nat) (msgId : UInt64) (pack : CmppSubmit) :
    Books setup
      { s with
        pipe := Function.update s.pipe c
          (s.pipe c ++ [Ismg.lambWorkLoop setup.get (setup.session c) msgId pack])
        accepted := s.accepted ++ [⟨c, msgId, pack⟩] } where
  session := by
    rw [List.map_append]
    refine hs.session.enter c _ ?_ fun c' hc' => ?_
    · apply List.Perm.subperm
      simp only [tags, Function.update_self, List.map_append]
      exact List.perm_append_comm
    · simp only [tags, Function.update_of_ne hc']
      exact .refl _
  server := hs.server
  connection := hs.connection
  gateway := hs.gateway

theorem Books.push (hs : Books setup s) {c : Nat} {m : Submit} {pipe : List Submit}
    (hpipe : s.pipe c = m :: pipe) :
    Books setup
      { s with
        pipe := Function.update s.pipe c pipe
        mt := Function.update s.mt (setup.session c).id
          { s.mt (setup.session c).id with
            queue := (s.mt (setup.session c).id).queue ++ [Mt.lambPushLoop m] }
        pushed := s.pushed ++ [(c, (setup.session c).id, tag m)] } := by
  have hmoved := @moved_push setup _ _ _ _ hpipe
  refine { hs with session := ?_, server := ?_ }
  · rw [List.map_append]
    refine hs.session.leave c _ (subperm_of_eq hmoved.head.symm) fun c' hc' => subperm_of_eq ?_
    exact hmoved.other (.pipe c') (by simpa using hc') (by simp)
  · rw [List.map_append]
    refine hs.server.enter (setup.session c).id _ ?_ fun a ha => subperm_of_eq ?_
    · rw [hmoved.other (.sent _) (by simp) (by simp)]
      exact subperm_concat hmoved.last _
    · rw [hmoved.other (.queue a) (by simp) (by simpa using ha),
        hmoved.other (.sent a) (by simp) (by simp)]
      rfl

theorem Books.pull (hs : Books setup s) {a : Int32} {r : LambSubmit} {queue : List LambSubmit}
    (hqueue : (s.mt a).queue = r :: queue) :
    Books setup
      { s with mt := Function.update s.mt a ⟨queue, (s.mt a).sent ++ [submitFrame r]⟩ } := by
  have hmoved := moved_pull hqueue
  refine { hs with server := hs.server.keep fun a' => ?_ }
  by_cases ha : a' = a
  · subst ha
    exact subperm_of_moved _ hmoved.head hmoved.last
  · rw [hmoved.other (.queue a') (by simpa using ha) (by simp),
      hmoved.other (.sent a') (by simp) (by simpa using ha)]
    exact .refl _

theorem Books.check (hs : Books setup s) {a : Int32} {m m' : Submit} {sent : List Frame}
    {env : Server.Env} {alloc : Server.Allocation} (hwork : s.work a = none)
    (hsent : (s.mt a).sent = .submit m :: sent) (hchecks : Server.passChecks env alloc m = .ok m') :
    Books setup
      { s with
        mt := Function.update s.mt a { s.mt a with sent := sent }
        work := Function.update s.work a (some (m', false)) } := by
  have hmoved := moved_check hwork hsent hchecks
  refine { hs with server := hs.server.keep fun a' => ?_ }
  rw [hmoved.other (.queue a') (by simp) (by simp)]
  refine (List.subperm_append_left _).mpr ?_
  by_cases ha : a' = a
  · subst ha
    have hunsent : unsent { s with
        mt := Function.update s.mt a' { s.mt a' with sent := sent }
        work := Function.update s.work a' (some (m', false)) } a' = unsent s a' ++ [tag m] := by
      simp [unsent, hwork, tag_checks hchecks]
    have hperm := subperm_of_moved [] hmoved.head hunsent
    simpa using hperm
  · rw [hmoved.other (.sent a') (by simpa using ha) (by simp),
      unsent_congr (Function.update_of_ne ha _ _)]

theorem Books.send (hs : Books setup s) {a : Int32} {d : Nat} {m : Submit} {again : Bool}
    (hwork : s.work a = some (m, again)) :
    Books setup
      { s with
        work := Function.update s.work a (some (m, true))
        wire := Function.update s.wire d (s.wire d ++ [m])
        sends := s.sends ++ [(a, d, again, tag m)] } := by
  have hcopied := copied_send (d := d) hwork
  have hother (a' : Int32) (ha : a' ≠ a) : unsent { s with
      work := Function.update s.work a (some (m, true))
      wire := Function.update s.wire d (s.wire d ++ [m])
      sends := s.sends ++ [(a, d, again, tag m)] } a' = unsent s a' :=
    unsent_congr (Function.update_of_ne ha _ _)
  have hself : unsent { s with
      work := Function.update s.work a (some (m, true))
      wire := Function.update s.wire d (s.wire d ++ [m])
      sends := s.sends ++ [(a, d, again, tag m)] } a = [] := by
    simp [unsent]
  refine { hs with server := ?_, connection := ?_ }
  · rw [List.filter_append, List.map_append]
    cases again with
    | true =>
      refine (List.append_nil _).symm ▸ hs.server.keep fun a' => ?_
      by_cases ha : a' = a
      · subst ha
        rw [hself]
        exact ((List.nil_sublist _).append_left _).append_left _ |>.subperm
      · rw [hother a' ha]
        exact .refl _
    | false =>
      refine hs.server.leave a (tag m) ?_ fun a' ha => ?_
      · have hunsent : unsent s a = [tag m] := by simp [unsent, hwork]
        rw [hself, hunsent, List.append_nil, ← List.append_assoc]
        exact (List.perm_append_singleton _ _).symm.subperm
      · rw [hother a' ha]
        exact .refl _
  · rw [List.map_append]
    refine hs.connection.enter d (tag m) ?_ fun d' hd => subperm_of_eq ?_
    · rw [hcopied.other (.holding d) (by simp) (by simp)]
      exact subperm_concat hcopied.last _
    · rw [hcopied.other (.wire d') (by simp) (by simpa using hd),
        hcopied.other (.holding d') (by simp) (by simp)]

theorem Books.route (hs : Books setup s) {d : Nat} {m : Submit} {wire : List Submit}
    {channel : LambChannel} (hholding : s.holding d = none) (hwire : s.wire d = m :: wire) :
    Books setup
      { s with
        wire := Function.update s.wire d wire
        holding := Function.update s.holding d (some (Scheduler.lambPushLoop m, channel.id)) } := by
  have hmoved := @moved_route _ _ _ _ channel hholding hwire
  refine { hs with connection := hs.connection.keep fun d' => ?_ }
  by_cases hd : d' = d
  · subst hd
    simpa using subperm_of_moved [] hmoved.head hmoved.last
  · rw [hmoved.other (.wire d') (by simpa using hd) (by simp),
      hmoved.other (.holding d') (by simp) (by simpa using hd)]

theorem Books.append (hs : Books setup s) {d : Nat} {r : LambSubmit} {g : Int32} {q : Nat}
    (hholding : s.holding d = some (r, g)) (hq : lambListFind s.gateways g = some q) :
    Books setup
      { s with
        holding := Function.update s.holding d none
        gateways := lambQueuePush s.gateways q r
        placed := s.placed ++ [(d, g, recordTag r)] } := by
  have hmoved := moved_append hholding hq
  refine { hs with connection := ?_, gateway := ?_ }
  · rw [List.map_append]
    refine hs.connection.leave d _ ?_ fun d' hd => subperm_of_eq ?_
    · rw [hmoved.other (.wire d) (by simp) (by simp), hmoved.head]
      exact List.perm_middle.symm.subperm
    · rw [hmoved.other (.wire d') (by simp) (by simp),
        hmoved.other (.holding d') (by simpa using hd) (by simp)]
  · rw [List.map_append]
    refine hs.gateway.enter g _ ?_ fun g' hg => subperm_of_eq ?_
    · rw [hmoved.other (.sp g) (by simp) (by simp)]
      exact subperm_concat hmoved.last _
    · rw [hmoved.other (.gateway g') (by simp) (by simpa using hg),
        hmoved.other (.sp g') (by simp) (by simp)]

theorem Books.request (hs : Books setup s) {g : Int32} {q : Nat} {r : LambSubmit}
    {rest : List LambSubmit} (hq : lambListFind s.gateways g = some q)
    (hqueue : queueOf s.gateways g = r :: rest) :
    Books setup
      { s with
        gateways := s.gateways.modify q fun queue => { queue with list := rest }
        sp := Function.update s.sp g (s.sp g ++ [submitFrame r]) } := by
  have hmoved := moved_request hq hqueue
  refine { hs with gateway := hs.gateway.keep fun g' => ?_ }
  by_cases hg : g' = g
  · subst hg
    simpa using subperm_of_moved [] hmoved.head hmoved.last
  · rw [hmoved.other (.gateway g') (by simpa using hg) (by simp),
      hmoved.other (.sp g') (by simp) (by simpa using hg)]

theorem Books.submit (hs : Books setup s) {g : Int32} {m : Submit} {sp : List Frame}
    {call : Sp.Sender.SubmitCall} (hsp : s.sp g = .submit m :: sp)
    (sender : Int32 → Sp.Sender.State) :
    Books setup
      { s with
        sp := Function.update s.sp g sp
        sender := sender
        calls := s.calls ++
          [⟨g, call, (Sp.Sender.confirm (s.sender g).confirmed m).correlation⟩] } := by
  have hmoved := @moved_submit _ _ _ _ call hsp sender
  refine { hs with gateway := ?_ }
  rw [List.map_append]
  refine hs.gateway.leave g _ ?_ fun g' hg => subperm_of_eq ?_
  · rw [hmoved.other (.gateway g) (by simp) (by simp), hmoved.head]
    exact List.perm_middle.symm.subperm
  · rw [hmoved.other (.gateway g') (by simp) (by simp),
      hmoved.other (.sp g') (by simpa using hg) (by simp)]

theorem Books.change (hs : Books setup s) (h : Change setup s t) : Books setup t := by
  cases h with
  | accept c msgId pack => exact hs.accept c msgId pack
  | push hpipe => exact hs.push hpipe
  | pull hqueue => exact hs.pull hqueue
  | check env alloc hwork hsent hchecks => exact hs.check hwork hsent hchecks
  | send hwork hconnection => exact hs.send hwork
  | route hholding hwire hchannel haccepts => exact hs.route hholding hwire
  | append hholding hq => exact hs.append hholding hq
  | request hq hqueue => exact hs.request hq hqueue
  | submit behind o hsp hcall => exact hs.submit hsp _

/-! ## Over a run -/

theorem count_sends (s : State) (x : Tag) :
    (s.sends.map (·.2.2.2)).count x =
      ((s.sends.filter (!·.2.2.1)).map (·.2.2.2)).count x + (repeats s).count x := by
  have hperm := List.filter_append_perm (fun p => !p.2.2.1) s.sends
  rw [repeats, ← List.count_append, ← List.map_append, ← (hperm.map _).count_eq x]
  simp only [Bool.not_not]

/-- The calls of `cmpp_submit` for a message, on whatever gateways, are at most as many as times it
was accepted from a client, plus the times that its server sent it again. -/
theorem calls_le_accepted_add_repeats (setup : Setup) {as : List Action} {s : State}
    (h : exec (step setup) State.init as = some s) (x : Tag) :
    (s.calls.map callTag).count x ≤ (acceptedTags setup s).count x + (repeats s).count x := by
  have hbooks : Books setup s := by
    refine exec_invariant (fun s a t hs hstep => ?_) (books_init setup) h
    exact (change_or_less hstep).elim hs.change hs.less
  have hcalls := hbooks.gateway.total x
  have hplaced := hbooks.connection.total x
  have hfirst := hbooks.server.total x
  have hpushed := hbooks.session.total x
  simp only [List.map_map, Function.comp_def] at hcalls hplaced hfirst hpushed
  have hsends := count_sends s x
  calc (s.calls.map callTag).count x
      ≤ (s.placed.map (·.2.2)).count x := hcalls
    _ ≤ (s.sends.map (·.2.2.2)).count x := hplaced
    _ = ((s.sends.filter (!·.2.2.1)).map (·.2.2.2)).count x + (repeats s).count x := hsends
    _ ≤ (s.pushed.map (·.2.2)).count x + (repeats s).count x := Nat.add_le_add_right hfirst _
    _ ≤ (acceptedTags setup s).count x + (repeats s).count x := Nat.add_le_add_right hpushed _

theorem repeatedRun_calls_le :
    ∃ s, exec (step openSetup) State.init repeatedRun = some s ∧
      (s.calls.map callTag).count (1, 8) = 2 ∧ (acceptedTags openSetup s).count (1, 8) = 1 ∧
      (s.calls.map callTag).count (1, 8) ≤
        (acceptedTags openSetup s).count (1, 8) + (repeats s).count (1, 8) := by
  have hrun : (exec (step openSetup) State.init repeatedRun).map (fun s =>
      ((s.calls.map callTag).count (1, 8), (acceptedTags openSetup s).count (1, 8))) =
        some (2, 1) := by
    decide
  obtain ⟨s, hs, hcounts⟩ := Option.map_eq_some_iff.mp hrun
  obtain ⟨hcalls, haccepted⟩ := Prod.mk.inj hcounts
  exact ⟨s, hs, hcalls, haccepted, calls_le_accepted_add_repeats openSetup hs (1, 8)⟩

end LambGateway.Relay.Platform
