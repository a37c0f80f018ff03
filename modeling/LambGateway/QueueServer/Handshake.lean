import LambGateway.Framework.CondWait
import LambGateway.Framework.CText
import LambGateway.Framework.Transition

/-!
# The handshake of the queue servers

The main loops of mt, mo, scheduler and delivery answer a `REQUEST` the same way: start a handler
thread for it, wait up to three seconds for a signal, and send the global `resp` unless the wait
has timed out. A handler opens a child socket, writes its id and the address of its own host
buffer to `resp` under the mutex, and signals after it has released it.
-/

namespace LambGateway.QueueServer.Handshake

open Framework

inductive RequestType where
  | pull
  | push
  | test
  | other
  deriving DecidableEq

inductive Server where
  | mt
  | mo
  | scheduler
  | delivery
  deriving DecidableEq

def Server.starts : Server → RequestType → Bool
  | .scheduler, .test => true
  | _, .pull => true
  | _, .push => true
  | _, _ => false

inductive Stage where
  | started
  /-- `resp` is written and the mutex released, the signal is still to come. -/
  | published
  | serving
  | ended
  deriving DecidableEq

/-- A handler thread: the request it was started for, and its child socket's address once that
is open. -/
structure Handler where
  id : Int32
  type : RequestType
  host : Option Bytes
  stage : Stage
  deriving DecidableEq

/-- The global `resp`: an id, and a pointer to the host buffer of a handler. -/
structure Resp where
  id : Int32
  host : Option Nat
  deriving DecidableEq

/-- A `RESPONSE` sent as the answer to a request. The host is undefined if it was read from the
stack of a thread that has ended. -/
structure Response where
  request : Nat
  id : Int32
  host : Option Bytes
  deriving DecidableEq

structure State where
  handlers : Nat → Option Handler
  /-- The number of requests accepted so far, which number the handlers. -/
  count : Nat
  resp : Resp
  /-- The main loop's wait, and the request it is for. -/
  wait : CondWait
  pending : Nat
  responses : List Response

def State.init : State where
  handlers _ := none
  count := 0
  resp := ⟨0, none⟩
  wait := .outside
  pending := 0
  responses := []

inductive Action where
  | request (id : Int32) (type : RequestType)
  /-- The handler has its socket open, and writes `resp`. -/
  | publish (h : Nat) (host : Bytes)
  | signal (h : Nat)
  /-- The handler finds no port: it signals and ends. -/
  | fail (h : Nat)
  /-- The handler ends without a signal: it could not be started, got no queue, or has lost its
  client. -/
  | quit (h : Nat)
  | expire
  | wake
  /-- The main loop has the mutex again; the answer is sent if it could be packed. -/
  | resume (packed : Bool)

def Resp.hostText (r : Resp) (handlers : Nat → Option Handler) : Option Bytes :=
  match r.host with
  | none => some []
  | some h =>
    match handlers h with
    | some handler => if handler.stage = .ended then none else handler.host
    | none => none

def step (server : Server) (s : State) : Action → Option State
  | .request id type =>
    if s.wait ≠ .outside then none
    else if id < 1 then some s
    else if server.starts type then some
      { s with
        handlers := Function.update s.handlers s.count (some ⟨id, type, none, .started⟩)
        count := s.count + 1
        wait := .blocked
        pending := s.count }
    else some s
  | .publish h host =>
    match s.handlers h with
    | some ⟨id, type, _, .started⟩ => some
      { s with
        handlers := Function.update s.handlers h (some ⟨id, type, some host, .published⟩)
        resp := ⟨id, some h⟩ }
    | _ => none
  | .signal h =>
    match s.handlers h with
    | some ⟨id, type, host, .published⟩ => some
      { s with
        handlers := Function.update s.handlers h (some ⟨id, type, host, .serving⟩)
        wait := s.wait.signal }
    | _ => none
  | .fail h =>
    match s.handlers h with
    | some ⟨id, type, host, .started⟩ => some
      { s with
        handlers := Function.update s.handlers h (some ⟨id, type, host, .ended⟩)
        wait := s.wait.signal }
    | _ => none
  | .quit h =>
    match s.handlers h with
    | some ⟨id, type, host, .started⟩ | some ⟨id, type, host, .serving⟩ => some
      { s with handlers := Function.update s.handlers h (some ⟨id, type, host, .ended⟩) }
    | _ => none
  | .expire => (s.wait.leave .expired).map fun w => { s with wait := w }
  | .wake => (s.wait.leave .signalled).map fun w => { s with wait := w }
  | .resume packed =>
    match s.wait with
    | .signalled => some
      { s with
        wait := .outside
        responses := if packed then
            s.responses ++ [⟨s.pending, s.resp.id, s.resp.hostText s.handlers⟩]
          else s.responses }
    | .expired => some { s with wait := .outside }
    | _ => none

/-! ## Answers -/

/-- The request is answered by the handler started for it: its id, and its child socket. -/
def Answered (s : State) (r : Response) : Prop :=
  ∃ handler host, s.handlers r.request = some handler ∧ handler.host = some host ∧
    r.id = handler.id ∧ r.host = some host

/-- When the main loop answers, the handler of the pending request was the last to write `resp`,
and it has not ended. -/
def AnswersPending (s : State) : Action → Prop
  | .resume _ => s.wait = .signalled → s.resp.host = some s.pending ∧
      ∀ handler ∈ s.handlers s.pending, handler.stage ≠ .ended
  | _ => True

instance AnswersPending.decidable (s : State) : (a : Action) → Decidable (AnswersPending s a)
  | .resume _ => inferInstanceAs (Decidable (s.wait = .signalled → s.resp.host = some s.pending ∧
      ∀ handler ∈ s.handlers s.pending, handler.stage ≠ .ended))
  | .request .. | .publish .. | .signal _ | .fail _ | .quit _ | .expire | .wake => isTrue trivial

/-- A handler that `resp` points to has published the id and the address that stand there. -/
structure Inv (s : State) : Prop where
  handlers_lt : ∀ {h handler}, s.handlers h = some handler → h < s.count
  resp : ∀ {h}, s.resp.host = some h →
    ∃ handler host, s.handlers h = some handler ∧ handler.host = some host ∧ s.resp.id = handler.id
  unopened : ∀ {h handler}, s.handlers h = some handler → handler.stage = .started →
    handler.host = none
  answered : ∀ r ∈ s.responses, Answered s r

theorem inv_init : Inv State.init where
  handlers_lt h := by cases h
  resp h := by cases h
  unopened h := by cases h
  answered _ h := by cases h

private theorem published_update {handlers : Nat → Option Handler} {h : Nat} {old new : Handler}
    (hold : handlers h = some old) (hid : new.id = old.id)
    (hhost : ∀ host, old.host = some host → new.host = some host) {k : Nat} {id : Int32}
    {host : Bytes}
    (hk : ∃ handler, handlers k = some handler ∧ handler.host = some host ∧ id = handler.id) :
    ∃ handler, Function.update handlers h (some new) k = some handler ∧
      handler.host = some host ∧ id = handler.id := by
  obtain ⟨handler, hsome, hopen, heq⟩ := hk
  by_cases hkh : k = h
  · subst hkh
    rw [hold] at hsome
    cases hsome
    exact ⟨new, Function.update_self .., hhost host hopen, by rw [heq, hid]⟩
  · exact ⟨handler, by rw [Function.update_of_ne hkh, hsome], hopen, heq⟩

private theorem inv_update {s : State} (hs : Inv s) {h : Nat} {old : Handler} (new : Handler)
    (hold : s.handlers h = some old) (hid : new.id = old.id)
    (hhost : ∀ host, old.host = some host → new.host = some host)
    (hstage : new.stage ≠ .started) (wait : CondWait) :
    Inv { s with handlers := Function.update s.handlers h (some new), wait := wait } where
  handlers_lt := by
    intro k handler hk
    simp only [Function.update_apply] at hk
    split at hk
    · next hkh =>
      rw [hkh]
      exact hs.handlers_lt hold
    · exact hs.handlers_lt hk
  resp := by
    intro k hk
    obtain ⟨handler, host, hsome, hopen, heq⟩ := hs.resp hk
    obtain ⟨handler', h'⟩ := published_update hold hid hhost ⟨handler, hsome, hopen, heq⟩
    exact ⟨handler', host, h'⟩
  unopened := by
    intro k handler hk hstarted
    simp only [Function.update_apply] at hk
    split at hk
    · cases hk
      exact absurd hstarted hstage
    · exact hs.unopened hk hstarted
  answered := by
    intro r hr
    obtain ⟨handler, host, hsome, hopen, heq, hrhost⟩ := hs.answered r hr
    obtain ⟨handler', hsome', hopen', heq'⟩ :=
      published_update hold hid hhost ⟨handler, hsome, hopen, heq⟩
    exact ⟨handler', host, hsome', hopen', heq', hrhost⟩

private theorem inv_request {s : State} (hs : Inv s) (id : Int32) (type : RequestType) :
    Inv { s with
      handlers := Function.update s.handlers s.count (some ⟨id, type, none, .started⟩)
      count := s.count + 1
      wait := .blocked
      pending := s.count } where
  handlers_lt := by
    intro k handler hk
    simp only [Function.update_apply] at hk
    split at hk
    · next hkc =>
      rw [hkc]
      exact Nat.lt_succ_self _
    · exact Nat.lt_succ_of_lt (hs.handlers_lt hk)
  resp := by
    intro k hk
    obtain ⟨handler, host, hsome, hrest⟩ := hs.resp hk
    have hne : k ≠ s.count := Nat.ne_of_lt (hs.handlers_lt hsome)
    exact ⟨handler, host, (Function.update_of_ne hne _ _).trans hsome, hrest⟩
  unopened := by
    intro k handler hk hstarted
    simp only [Function.update_apply] at hk
    split at hk
    · cases hk
      rfl
    · exact hs.unopened hk hstarted
  answered := by
    intro r hr
    obtain ⟨handler, host, hsome, hrest⟩ := hs.answered r hr
    have hne : r.request ≠ s.count := Nat.ne_of_lt (hs.handlers_lt hsome)
    exact ⟨handler, host, (Function.update_of_ne hne _ _).trans hsome, hrest⟩

private theorem inv_publish {s : State} (hs : Inv s) {h : Nat} {handler : Handler} {host : Bytes}
    (hsome : s.handlers h = some handler) (hhost : handler.host = some host) :
    Inv { s with resp := ⟨handler.id, some h⟩ } where
  handlers_lt := hs.handlers_lt
  resp := by
    intro k hk
    cases hk
    exact ⟨handler, host, hsome, hhost, rfl⟩
  unopened := hs.unopened
  answered := hs.answered

private theorem inv_wait {s : State} (hs : Inv s) (wait : CondWait) :
    Inv { s with wait := wait } where
  handlers_lt := hs.handlers_lt
  resp := hs.resp
  unopened := hs.unopened
  answered := hs.answered

/-- What is sent while `resp` points to the pending request's handler answers the request. -/
private theorem inv_answer {s : State} (hs : Inv s) (hhost : s.resp.host = some s.pending)
    (hlive : ∀ handler ∈ s.handlers s.pending, handler.stage ≠ .ended) :
    Inv { s with
      wait := .outside
      responses := s.responses ++ [⟨s.pending, s.resp.id, s.resp.hostText s.handlers⟩] } where
  handlers_lt := hs.handlers_lt
  resp := hs.resp
  unopened := hs.unopened
  answered := by
    intro r hr
    rcases List.mem_append.mp hr with hr | hr
    · exact hs.answered r hr
    · obtain ⟨handler, host, hsome, hopen, heq⟩ := hs.resp hhost
      rw [List.mem_singleton.mp hr]
      refine ⟨handler, host, hsome, hopen, heq, ?_⟩
      simp only [Resp.hostText, hhost, hsome, if_neg (hlive handler hsome), hopen]

theorem inv_step (server : Server) (s : State) (a : Action) (s' : State) (hs : Inv s)
    (hpending : AnswersPending s a) (h : step server s a = some s') : Inv s' := by
  cases a with
  | request id type =>
    simp only [step] at h
    split at h
    · cases h
    · split at h
      · cases h
        exact hs
      · split at h <;> cases h
        · exact inv_request hs id type
        · exact hs
  | publish k host =>
    simp only [step] at h
    split at h <;> cases h
    next id type old hk =>
    have hnone : old = none := hs.unopened hk rfl
    have hupdate := inv_update hs ⟨id, type, some host, .published⟩ hk rfl
      (by simp [hnone]) (by simp) s.wait
    exact inv_publish hupdate (Function.update_self ..) rfl
  | signal k =>
    simp only [step] at h
    split at h <;> cases h
    next id type host hk =>
    exact inv_update hs ⟨id, type, host, .serving⟩ hk rfl (fun _ h => h) (by simp) _
  | fail k =>
    simp only [step] at h
    split at h <;> cases h
    next id type host hk =>
    exact inv_update hs ⟨id, type, host, .ended⟩ hk rfl (fun _ h => h) (by simp) _
  | quit k =>
    simp only [step] at h
    split at h <;> cases h
    all_goals
      next id type host hk =>
      exact inv_update hs ⟨id, type, host, .ended⟩ hk rfl (fun _ h => h) (by simp) s.wait
  | expire =>
    obtain ⟨w, -, rfl⟩ := Option.map_eq_some_iff.mp h
    exact inv_wait hs w
  | wake =>
    obtain ⟨w, -, rfl⟩ := Option.map_eq_some_iff.mp h
    exact inv_wait hs w
  | resume packed =>
    simp only [step] at h
    split at h
    · next hwait =>
      cases h
      obtain ⟨hhost, hlive⟩ := hpending hwait
      cases packed with
      | true => exact inv_answer hs hhost hlive
      | false => exact inv_wait hs .outside
    · cases h
      exact inv_wait hs .outside
    · cases h

/-- If the main loop never answers while `resp` is another handler's, every `RESPONSE` carries
the id of the request it answers and the child socket of the handler started for it. -/
theorem answersPending_answered (server : Server) {as : List Action} {s : State}
    (hpending : Guarded (step server) AnswersPending State.init as)
    (h : exec (step server) State.init as = some s) : ∀ r ∈ s.responses, Answered s r :=
  (exec_invariant_of_guarded (inv_step server) inv_init hpending h).answered

private def punctualRun : List Action :=
  [.request 1 .pull, .publish 0 (ascii "tcp://127.0.0.1:1277"), .signal 0, .resume true,
    .request 2 .push, .publish 1 (ascii "tcp://127.0.0.1:1278"), .signal 1, .resume true]

theorem answersPending_answered_two_requests : ∃ s,
    exec (step .mt) State.init punctualRun = some s ∧ s.responses.length = 2 ∧
      ∀ r ∈ s.responses, Answered s r :=
  ⟨_, rfl, rfl, answersPending_answered .mt
    (show Guarded _ AnswersPending State.init punctualRun by decide) rfl⟩

/-- The handler of the first request publishes after its wait has expired, while the main loop
waits for the handler of the second: account 2 gets the address of account 1's queue. -/
theorem late_handler_not_answered : ¬∀ (as : List Action) (s : State),
    exec (step .mt) State.init as = some s → ∀ r ∈ s.responses, Answered s r := by
  intro h
  obtain ⟨handler, host, hsome, -, hid, -⟩ := h [.request 1 .pull, .expire, .resume true,
    .request 2 .pull, .publish 0 (ascii "tcp://127.0.0.1:1277"), .signal 0, .resume true] _ rfl _
    List.mem_cons_self
  cases hsome
  revert hid
  decide

/-! ## Punctual handlers -/

/-- While the main loop waits, only the handler it waits for publishes and signals; no handler
fails, the awaited one does not end, and no wait ends without a signal. -/
def Punctual (s : State) : Action → Prop
  | .publish h _ => s.wait ≠ .outside → h = s.pending
  | .signal h => s.wait ≠ .outside → h = s.pending
  | .fail _ => s.wait = .outside
  | .quit h => s.wait ≠ .outside → h ≠ s.pending
  | .wake => False
  | _ => True

/-- During a punctual wait the awaited handler is the last to have written `resp` as soon as it
has published, and a signal means that it has. -/
structure PunctualInv (s : State) : Prop where
  pending_lt : s.wait ≠ .outside → ∃ handler, s.handlers s.pending = some handler
  resp : s.wait ≠ .outside → ∀ handler ∈ s.handlers s.pending, handler.stage ≠ .started →
    s.resp.host = some s.pending
  live : s.wait ≠ .outside → ∀ handler ∈ s.handlers s.pending, handler.stage ≠ .ended
  signalled : s.wait = .signalled → ∀ handler ∈ s.handlers s.pending, handler.stage ≠ .started

private theorem punctualInv_outside {s : State} (h : s.wait = .outside) : PunctualInv s where
  pending_lt hwait := absurd h hwait
  resp hwait := absurd h hwait
  live hwait := absurd h hwait
  signalled hwait := by rw [h] at hwait; cases hwait

private theorem punctualInv_awaited {s : State} {new : Handler} (hlive : new.stage ≠ .ended)
    (hopen : new.stage ≠ .started → s.resp.host = some s.pending)
    (hsignalled : s.wait = .signalled → new.stage ≠ .started)
    (hnew : s.handlers s.pending = some new) : PunctualInv s where
  pending_lt _ := ⟨new, hnew⟩
  resp _ handler h := by
    rw [hnew] at h
    cases h
    exact hopen
  live _ handler h := by
    rw [hnew] at h
    cases h
    exact hlive
  signalled hwait handler h := by
    rw [hnew] at h
    cases h
    exact hsignalled hwait

theorem punctualInv_step (server : Server) (s : State) (a : Action) (s' : State)
    (hs : PunctualInv s) (hpunctual : Punctual s a) (h : step server s a = some s') :
    PunctualInv s' := by
  cases a with
  | request id type =>
    simp only [step] at h
    split at h
    · cases h
    · split at h
      · cases h
        exact hs
      · split at h <;> cases h
        · exact punctualInv_awaited (by simp) (by simp) (by simp) (Function.update_self ..)
        · exact hs
  | publish k host =>
    simp only [step] at h
    split at h <;> cases h
    by_cases hwait : s.wait = .outside
    · exact punctualInv_outside hwait
    · obtain rfl := hpunctual hwait
      exact punctualInv_awaited (by simp) (by simp) (by simp) (Function.update_self ..)
  | signal k =>
    simp only [step] at h
    split at h <;> cases h
    next hk =>
    by_cases hwait : s.wait = .outside
    · exact punctualInv_outside (by rw [hwait]; rfl)
    · obtain rfl := hpunctual hwait
      exact punctualInv_awaited (by simp) (fun _ => hs.resp hwait _ hk (by simp)) (by simp)
        (Function.update_self ..)
  | fail k =>
    simp only [step] at h
    split at h <;> cases h
    have hwait : s.wait = .outside := hpunctual
    exact punctualInv_outside (by rw [hwait]; rfl)
  | quit k =>
    simp only [step] at h
    split at h <;> cases h
    all_goals
      by_cases hwait : s.wait = .outside
      · exact punctualInv_outside hwait
      · have hne : s.pending ≠ k := fun h => hpunctual hwait h.symm
        refine ⟨?_, ?_, ?_, ?_⟩ <;> simp only [Function.update_of_ne hne]
        · exact hs.pending_lt
        · exact hs.resp
        · exact hs.live
        · exact hs.signalled
  | expire =>
    obtain ⟨w, hw, rfl⟩ := Option.map_eq_some_iff.mp h
    obtain ⟨hblocked, rfl⟩ := CondWait.leave_eq_some.mp hw
    have hwait : s.wait ≠ .outside := by rw [hblocked]; decide
    exact ⟨fun _ => hs.pending_lt hwait, fun _ => hs.resp hwait, fun _ => hs.live hwait,
      fun h => by cases h⟩
  | wake => exact hpunctual.elim
  | resume packed =>
    simp only [step] at h
    split at h
    · cases h
      exact punctualInv_outside rfl
    · cases h
      exact punctualInv_outside rfl
    · cases h

/-- Punctual handlers alone make the answers right. -/
theorem punctual_answersPending (server : Server) {as : List Action}
    (h : Guarded (step server) Punctual State.init as) :
    Guarded (step server) AnswersPending State.init as := by
  refine guarded_of_invariant (punctualInv_step server) ?_ (punctualInv_outside rfl) h
  intro s a hs _
  cases a with
  | resume packed =>
    intro hwait
    have hne : s.wait ≠ .outside := by rw [hwait]; decide
    obtain ⟨handler, hsome⟩ := hs.pending_lt hne
    exact ⟨hs.resp hne handler hsome (hs.signalled hwait handler hsome), hs.live hne⟩
  | _ => trivial

end LambGateway.QueueServer.Handshake
