import LambGateway.Framework.Transition
import LambGateway.Message.Records
import LambGateway.QueueServer.Handshake

/-!
# The pull loops of the queue servers

On a `LAMB_REQ` the handlers of mt, mo, delivery and scheduler take the first record off their
queue, pack it, send it and free it. Neither a failed allocation nor a failed `nn_send` brings
the record back.
-/

namespace LambGateway.QueueServer

open Framework Handshake

/-- What `nn_send` is given. `headless` is a message of no bytes, without even a command. -/
inductive Frame where
  | submit (m : Submit)
  | report (m : Report)
  | deliver (m : Deliver)
  | empty
  | headless
  deriving DecidableEq

def submitFrame (m : LambSubmit) : Frame :=
  .submit
    { id := m.id, account := m.account, company := m.company, spid := m.spid.text,
      spcode := m.spcode.text, phone := m.phone.text, msgfmt := m.msgfmt,
      length := Int32.ofNat m.content.bytes.length, content := m.content.bytes }

/-- A record in a queue of mo or delivery, which `CHECK_TYPE` tells apart. -/
inductive Message where
  | report (r : LambReport)
  | deliver (d : LambDeliver)
  deriving DecidableEq

/-- `report__pack` under `LAMB_REPORT`, `deliver__pack` under `LAMB_DELIVER`. -/
def messageFrame : Message → Frame
  | .report r => .report
    { id := r.id, account := r.account, company := r.company, spcode := r.spcode.text,
      phone := r.phone.text, status := r.status, submittime := r.submittime.text,
      donetime := r.donetime.text }
  | .deliver d => .deliver
    { id := d.id, account := d.account, company := d.company, phone := d.phone.text,
      spcode := d.spcode.text, serviceid := d.serviceid.text, msgfmt := d.msgfmt,
      length := Int32.ofNat d.content.bytes.length, content := d.content.bytes }

structure PullState (ρ : Type) where
  queue : List ρ
  sent : List Frame
  deriving DecidableEq

/-- Which calls of a request succeed: the `malloc` of `pk`, the one in `lamb_pack_assembly`, and
`nn_send`. -/
structure Outcome where
  malloc : Bool
  assembly : Bool
  send : Bool
  deriving DecidableEq

variable {ρ : Type}

def lambQueuePop : List ρ → Option ρ × List ρ
  | [] => (none, [])
  | r :: queue => (some r, queue)

def nnSend (s : PullState ρ) (f : Frame) (success : Bool) : PullState ρ :=
  if success then { s with sent := s.sent ++ [f] } else s

/-- One `LAMB_REQ`. With `checked`, `LAMB_EMPTY` is only sent if it could be assembled. -/
def pullRequest (frame : ρ → Frame) (checked : Bool) (s : PullState ρ) (o : Outcome) :
    PullState ρ :=
  match lambQueuePop s.queue with
  | (none, queue) =>
    let popped := { s with queue := queue }
    if o.assembly then nnSend popped .empty o.send
    else if checked then popped
    else nnSend popped .headless o.send
  | (some r, queue) =>
    let popped := { s with queue := queue }
    if o.malloc && o.assembly then nnSend popped (frame r) o.send else popped

def Mt.lambPullLoop : PullState LambSubmit → Outcome → PullState LambSubmit :=
  pullRequest submitFrame true

def Mo.lambPullLoop : PullState Message → Outcome → PullState Message :=
  pullRequest messageFrame false

def Delivery.lambPullLoop : PullState Message → Outcome → PullState Message :=
  pullRequest messageFrame true

def Scheduler.lambPullLoop : PullState LambSubmit → Outcome → PullState LambSubmit :=
  pullRequest submitFrame false

abbrev Record : Server → Type
  | .mt => LambSubmit
  | .mo => Message
  | .delivery => Message
  | .scheduler => LambSubmit

def frameOf : (v : Server) → Record v → Frame
  | .mt => submitFrame
  | .mo => messageFrame
  | .delivery => messageFrame
  | .scheduler => submitFrame

def lambPullLoop : (v : Server) → PullState (Record v) → Outcome → PullState (Record v)
  | .mt => Mt.lambPullLoop
  | .mo => Mo.lambPullLoop
  | .delivery => Delivery.lambPullLoop
  | .scheduler => Scheduler.lambPullLoop

/-- A push loop appends a record, or a pull loop gets a `LAMB_REQ`. -/
inductive PullAction (ρ : Type) where
  | push (r : ρ)
  | request (o : Outcome)

def pullStep (v : Server) (s : PullState (Record v)) : PullAction (Record v) →
    Option (PullState (Record v))
  | .push r => some { s with queue := s.queue ++ [r] }
  | .request o => some (lambPullLoop v s o)

/-! ## One request -/

/-- A frame tells the record that it was made from. -/
theorem submitFrame_injective : Function.Injective submitFrame := by
  intro m m' h
  simp only [submitFrame, Frame.submit.injEq, Submit.mk.injEq] at h
  obtain ⟨hid, haccount, hcompany, hspid, hspcode, hphone, hmsgfmt, -, hcontent⟩ := h
  cases m
  cases m'
  simp_all [CString.ext_iff, Content.ext_iff]

theorem messageFrame_injective : Function.Injective messageFrame := by
  intro m m' h
  cases m <;> cases m' <;> simp only [messageFrame, reduceCtorEq] at h
  · rename_i r r'
    simp only [Frame.report.injEq, Report.mk.injEq] at h
    cases r
    cases r'
    simp_all [CString.ext_iff]
  · rename_i d d'
    simp only [Frame.deliver.injEq, Deliver.mk.injEq] at h
    cases d
    cases d'
    simp_all [CString.ext_iff, Content.ext_iff]

theorem frameOf_injective (v : Server) : Function.Injective (frameOf v) := by
  cases v with
  | mt => exact submitFrame_injective
  | mo => exact messageFrame_injective
  | delivery => exact messageFrame_injective
  | scheduler => exact submitFrame_injective

def Frame.carries : Frame → Bool
  | .empty => false
  | .headless => false
  | _ => true

theorem frameOf_carries (v : Server) (r : Record v) : (frameOf v r).carries = true := by
  cases v with
  | mt => rfl
  | mo => cases r <;> rfl
  | delivery => cases r <;> rfl
  | scheduler => rfl

def Outcome.succeeds (o : Outcome) : Bool := o.malloc && o.assembly && o.send

/-- With something in the queue, the record leaves it whatever fails, and its frame is sent if
nothing does. -/
theorem pullRequest_cons (frame : ρ → Frame) (checked : Bool) {s : PullState ρ} {r : ρ}
    {queue : List ρ} (h : s.queue = r :: queue) (o : Outcome) :
    pullRequest frame checked s o =
      { queue := queue, sent := if o.succeeds then s.sent ++ [frame r] else s.sent } := by
  obtain ⟨malloc, assembly, send⟩ := o
  cases malloc <;> cases assembly <;> cases send <;>
    simp [pullRequest, h, lambQueuePop, nnSend, Outcome.succeeds]

theorem pullRequest_nil (frame : ρ → Frame) (checked : Bool) {s : PullState ρ}
    (h : s.queue = []) (o : Outcome) :
    (pullRequest frame checked s o).queue = [] ∧
      (pullRequest frame checked s o).sent.filter Frame.carries =
        s.sent.filter Frame.carries := by
  obtain ⟨malloc, assembly, send⟩ := o
  cases assembly <;> cases checked <;> cases send <;>
    simp [pullRequest, h, lambQueuePop, nnSend, Frame.carries]

theorem lambPullLoop_cons (v : Server) {s : PullState (Record v)} {r : Record v}
    {queue : List (Record v)} (h : s.queue = r :: queue) (o : Outcome) :
    lambPullLoop v s o =
      { queue := queue, sent := if o.succeeds then s.sent ++ [frameOf v r] else s.sent } := by
  cases v <;> exact pullRequest_cons _ _ h o

theorem lambPullLoop_nil (v : Server) {s : PullState (Record v)} (h : s.queue = [])
    (o : Outcome) :
    (lambPullLoop v s o).queue = [] ∧
      (lambPullLoop v s o).sent.filter Frame.carries = s.sent.filter Frame.carries := by
  cases v <;> exact pullRequest_nil _ _ h o

/-! ## No message is lost -/

/-- A record leaves the queue only when a frame with it has been sent, and a failure leaves the
queue as it was. -/
structure Lossless (v : Server) (s : PullState (Record v)) (o : Outcome)
    (t : PullState (Record v)) : Prop where
  taken : t.queue = s.queue ∨
    ∃ r, s.queue = r :: t.queue ∧ t.sent = s.sent ++ [frameOf v r]
  kept : o.succeeds = false → t.queue = s.queue

def EmptyOrSent (v : Server) (s : PullState (Record v)) : PullAction (Record v) → Prop
  | .push _ => True
  | .request o => s.queue = [] ∨ o.succeeds = true

def RequestLossless (v : Server) (s : PullState (Record v)) : PullAction (Record v) → Prop
  | .push _ => True
  | .request o => Lossless v s o (lambPullLoop v s o)

theorem requestLossless_iff (v : Server) (s : PullState (Record v)) (a : PullAction (Record v)) :
    RequestLossless v s a ↔ EmptyOrSent v s a := by
  cases a with
  | push r => exact Iff.rfl
  | request o =>
    cases hqueue : s.queue with
    | nil =>
      have hnil := (lambPullLoop_nil v hqueue o).1
      have hkept : (lambPullLoop v s o).queue = s.queue := hnil.trans hqueue.symm
      exact iff_of_true ⟨.inl hkept, fun _ => hkept⟩ (.inl hqueue)
    | cons r queue =>
      have hcons := lambPullLoop_cons v hqueue o
      constructor
      · intro h
        by_contra hfail
        obtain ⟨-, hfail⟩ := not_or.mp hfail
        have hkept := h.kept (Bool.eq_false_iff.mpr hfail)
        rw [hcons, hqueue] at hkept
        exact List.cons_ne_self r queue hkept.symm
      · rintro (hnil | hsent)
        · rw [hqueue] at hnil
          cases hnil
        · have htaken : s.queue = r :: (lambPullLoop v s o).queue := by rw [hcons, hqueue]
          have hframe : (lambPullLoop v s o).sent = s.sent ++ [frameOf v r] := by
            rw [hcons, hsent]
            rfl
          exact ⟨.inr ⟨r, htaken, hframe⟩, fun hfail => absurd (hsent.symm.trans hfail) (by decide)⟩

/-- Over a run, no request loses a message if and only if each of them finds the queue empty or
succeeds altogether. -/
theorem pull_lossless_iff (v : Server) (s : PullState (Record v))
    (as : List (PullAction (Record v))) :
    Guarded (pullStep v) (RequestLossless v) s as ↔ Guarded (pullStep v) (EmptyOrSent v) s as :=
  guarded_congr (requestLossless_iff v) s as

/-- The send fails once: the record is neither in the queue nor in a frame. -/
theorem failed_send_not_lossless :
    ∃ (s : PullState LambSubmit) (o : Outcome),
      ¬ Guarded (pullStep .mt) (RequestLossless .mt) s [.request o] ∧
      s.queue.length = 1 ∧ (lambPullLoop .mt s o).queue = [] ∧ (lambPullLoop .mt s o).sent = [] := by
  let m : LambSubmit :=
    { id := 1, account := 1, company := 1, spid := strncpy (ascii "901234") 7,
      spcode := strncpy (ascii "10690001") 20, phone := strncpy (ascii "13800138000") 20,
      msgfmt := 8, content := Content.ofBytes [78, 45] }
  refine ⟨⟨[m], []⟩, ⟨true, true, false⟩, ?_, rfl, rfl, rfl⟩
  rw [guarded_congr (requestLossless_iff .mt)]
  rintro ⟨hempty | hsucceeds, -⟩
  · cases hempty
  · cases hsucceeds

/-! ## Runs -/

def pushed : List (PullAction ρ) → List ρ
  | [] => []
  | .push r :: as => r :: pushed as
  | .request _ :: as => pushed as

/-- What was queued has been sent, in order, or is queued still. -/
theorem pull_run_conserves (v : Server) {s t : PullState (Record v)}
    {as : List (PullAction (Record v))} (hg : Guarded (pullStep v) (EmptyOrSent v) s as)
    (h : exec (pullStep v) s as = some t) :
    ∃ taken, s.queue ++ pushed as = taken ++ t.queue ∧
      t.sent.filter Frame.carries = s.sent.filter Frame.carries ++ taken.map (frameOf v) := by
  induction as generalizing s with
  | nil =>
    cases h
    exact ⟨[], by simp [pushed], by simp⟩
  | cons a as ih =>
    obtain ⟨u, hstep, hrest⟩ := exec_cons_eq_some.mp h
    obtain ⟨taken, hqueue, hsent⟩ := ih (hg.2 u hstep) hrest
    cases a with
    | push r =>
      cases hstep
      exact ⟨taken, by simpa [pushed] using hqueue, hsent⟩
    | request o =>
      cases hstep
      cases hs : s.queue with
      | nil =>
        obtain ⟨hnil, hfilter⟩ := lambPullLoop_nil v hs o
        rw [hnil] at hqueue
        exact ⟨taken, hqueue, hsent.trans (congrArg (· ++ _) hfilter)⟩
      | cons r queue =>
        have hsucceeds : o.succeeds = true := hg.1.resolve_left (by simp [hs])
        rw [lambPullLoop_cons v hs o, hsucceeds] at hqueue hsent
        have hcarries : (frameOf v r).carries = true := frameOf_carries v r
        refine ⟨r :: taken, congrArg (r :: ·) hqueue, ?_⟩
        rw [hsent]
        simp [hcarries]

end LambGateway.QueueServer
