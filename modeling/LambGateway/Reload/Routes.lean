import LambGateway.Console.Signal
import LambGateway.Framework.Renewal
import LambGateway.Reload.Tables

/-!
# Routes that follow their table

The web changes the table `delivery` and then sets the signal of the delivery program. The stat
loop of the program polls the signal and reloads the routes when it was set. A change is not lost
as long as no signal is set between the two commands of a poll that has found none, and the
database answers.
-/

namespace LambGateway.Reload.Routes

open Framework
open Console (signalOf)
open scoped List

/-! ## The web -/

/-- `INSERT INTO delivery`, with what `checkArgs` leaves of a request and the next number. -/
def DeliveryModel.create (rows : List DeliveryRow) (row : DeliveryRow) : List DeliveryRow :=
  rows ++ [row]

/-- `UPDATE delivery SET ... WHERE id = :id`, with the columns that are not null. -/
def DeliveryModel.change (rows : List DeliveryRow) (id : Int32) (rexp : Option ColumnText)
    (target : Option Int32) : List DeliveryRow :=
  rows.map fun row =>
    if row.id = id then
      { row with rexp := rexp.getD row.rexp, target := target.getD row.target }
    else row

/-- `DELETE FROM delivery WHERE id = %d` -/
def DeliveryModel.delete (rows : List DeliveryRow) (id : Int32) : List DeliveryRow :=
  rows.filter fun row => row.id ≠ id

/-- `delivery.%d` -/
def deliveryKey (id : Int32) : Bytes := ascii "delivery." ++ decimalInt id.toInt

/-! ## The system -/

/-- Where the stat loop is: between the commands of `lamb_check_signal` with what `HGET` has given,
or in `lamb_reload`. -/
inductive StatLoop where
  | idle
  | polled (signal : Int32)
  | reloading
  deriving DecidableEq

/-- `owed` is the number of requests whose statement is executed and whose signal is still to be
set. -/
structure State where
  rows : List DeliveryRow
  signal : Bytes → Option Bytes
  owed : Nat
  statLoop : StatLoop
  sleeping : Bool
  delivery : List LambDelivery

/-- The program has loaded its routes; the hashes hold what earlier runs have left there. -/
def State.init (rows : List DeliveryRow) (signal : Bytes → Option Bytes)
    (delivery : List LambDelivery) : State :=
  ⟨rows, signal, 0, .idle, false, delivery⟩

inductive Action where
  | create (row : DeliveryRow)
  | change (id : Int32) (rexp : Option ColumnText) (target : Option Int32)
  | delete (id : Int32)
  /-- A request goes on to `signalNotification(1)`. -/
  | notify
  | hget
  | clear
  /-- The reload, with the answer to its query and the nodes that can be allocated. -/
  | reload (answer : QueryResult DeliveryRow) (alloc : Nat → Bool)

/-- `hSet('delivery.' . $id, 'signal', 1)` -/
def State.signalNotification (s : State) (id : Int32) : State :=
  if 0 < id then
    { s with signal := Function.update s.signal (deliveryKey id) (some (decimalInt 1)) }
  else s

/-- `HSET delivery.%d signal 0` -/
def State.lambClearSignal (s : State) (id : Int32) : State :=
  { s with signal := Function.update s.signal (deliveryKey id) (some (decimalInt 0)) }

/-- The rows come in any order. -/
def Answers (rows : List DeliveryRow) (answer : QueryResult DeliveryRow) : Prop :=
  ∀ rows' ∈ answer, rows' ~ rows

instance (rows : List DeliveryRow) (answer : QueryResult DeliveryRow) :
    Decidable (Answers rows answer) :=
  inferInstanceAs (Decidable (∀ rows' ∈ answer, rows' ~ rows))

def step (id : Int32) (s : State) : Action → Option State
  | .create row => some
    { s with rows := DeliveryModel.create s.rows row, owed := s.owed + 1 }
  | .change i rexp target => some
    { s with rows := DeliveryModel.change s.rows i rexp target, owed := s.owed + 1 }
  | .delete i => some { s with rows := DeliveryModel.delete s.rows i, owed := s.owed + 1 }
  | .notify =>
    if 0 < s.owed then some ({ s with owed := s.owed - 1 }.signalNotification 1) else none
  | .hget =>
    match s.statLoop with
    | .idle => some { s with statLoop := .polled (signalOf (s.signal (deliveryKey id))) }
    | _ => none
  | .clear =>
    match s.statLoop with
    | .polled signal =>
      if !s.sleeping && signal == 1 then
        some { s.lambClearSignal id with statLoop := .reloading, sleeping := true }
      else some { s.lambClearSignal id with statLoop := .idle }
    | _ => none
  | .reload answer alloc =>
    match s.statLoop with
    | .reloading =>
      if Answers s.rows answer then
        some
          { s with
            delivery := (Delivery.lambReload alloc s.delivery answer).2
            statLoop := .idle
            sleeping := false }
      else none
    | _ => none

/-- A signal that is set comes before the poll that clears it, or the poll reloads anyway; and
the reload gets its rows. -/
def Undisturbed (id : Int32) (s : State) : Action → Prop
  | .clear => s.statLoop = .polled 1 ∨ signalOf (s.signal (deliveryKey id)) ≠ 1
  | .reload none _ => False
  | .reload (some rows) alloc => Allocated alloc rows
  | _ => True

instance (id : Int32) (s : State) : ∀ a, Decidable (Undisturbed id s a)
  | .clear => inferInstanceAs (Decidable (_ ∨ _))
  | .reload none _ => isFalse fun h => h
  | .reload (some rows) alloc => inferInstanceAs (Decidable (∀ i < rows.length, alloc i = true))
  | .create _ | .change .. | .delete _ | .notify | .hget => isTrue trivial

/-! ## The routes as a copy that is renewed -/

/-- The routes are those of the table, in some order. -/
def UpToDate (rows : List DeliveryRow) (delivery : List LambDelivery) : Prop :=
  delivery ~ rows.map DeliveryRow.entry

def parts : Renewal.Parts Unit (List DeliveryRow) (List LambDelivery) where
  order := [()]
  Renews _ rows _ delivery := UpToDate rows delivery
  Current _ := UpToDate
  current_of_renews h := h
  keeps _ _ _ h := h

def StatLoop.reader : StatLoop → Renewal.Reader Unit
  | idle => .idle
  | polled signal => .looked (signal == 1)
  | reloading => .renewing [()]

def State.view (s : State) (id : Int32) :
    Renewal.State Unit (List DeliveryRow) (List LambDelivery) where
  source := s.rows
  copy := s.delivery
  up := signalOf (s.signal (deliveryKey id)) == 1
  owing := decide (0 < s.owed)
  reader := s.statLoop.reader

/-- Between its reloads the program is not sleeping. -/
def Awake (s : State) : Prop := s.sleeping = true → s.statLoop = .reloading

theorem signal_notified (s : State) :
    signalOf ((s.signalNotification 1).signal (deliveryKey 1)) = 1 := by
  have hset : (s.signalNotification 1).signal (deliveryKey 1) = some (decimalInt 1) := by
    rw [State.signalNotification, if_pos (show (0 : Int32) < 1 by decide)]
    exact Function.update_self (deliveryKey 1) (some (decimalInt 1)) s.signal
  rw [hset]
  exact Console.signalOf_decimalInt 1

theorem signal_cleared (s : State) (id : Int32) :
    signalOf ((s.lambClearSignal id).signal (deliveryKey id)) = 0 := by
  have hset : (s.lambClearSignal id).signal (deliveryKey id) = some (decimalInt 0) :=
    Function.update_self ..
  rw [hset]
  exact Console.signalOf_decimalInt 0

theorem awake_step {id : Int32} {s t : State} {a : Action} (hs : Awake s)
    (h : step id s a = some t) : Awake t := by
  unfold Awake at hs ⊢
  cases a with
  | create | change | delete =>
    cases h
    exact hs
  | notify =>
    simp only [step] at h
    split at h <;> cases h
    exact hs
  | hget =>
    simp only [step] at h
    split at h
    · next hidle =>
      cases h
      intro hsleeping
      have hreloading := hs hsleeping
      rw [hidle] at hreloading
      cases hreloading
    · cases h
  | clear =>
    simp only [step] at h
    split at h
    · next hpolled =>
      split at h <;> cases h
      · exact fun _ => rfl
      · intro hsleeping
        have hreloading := hs hsleeping
        rw [hpolled] at hreloading
        cases hreloading
    · cases h
  | reload answer alloc =>
    simp only [step] at h
    split at h
    · split at h <;> cases h
      intro hsleeping
      cases hsleeping
    · cases h

/-- A reload whose query is answered loads what it is answered. -/
theorem upToDate_lambReload {rows answer : List DeliveryRow} (hanswer : answer ~ rows)
    {alloc : Nat → Bool} (halloc : Allocated alloc answer) (delivery : List LambDelivery) :
    UpToDate rows (Delivery.lambReload alloc delivery (some answer)).2 := by
  have hloaded : (Delivery.lambReload alloc delivery (some answer)).2 =
      answer.map DeliveryRow.entry := by
    rw [Delivery.lambReload, lambGetDelivery, clear_eq_nil, fetchRows]
    split
    · next hempty =>
      rw [List.length_eq_zero_iff.mp (Nat.lt_one_iff.mp hempty)]
      rfl
    · exact (pushRows_of_allocated DeliveryRow.entry [] halloc).trans (List.nil_append _)
  rw [UpToDate, hloaded]
  exact hanswer.map _

/-- Each step is one of the flag and the copy. -/
theorem view_step {s t : State} {a : Action} (hs : Awake s) (hguard : Undisturbed 1 s a)
    (h : step 1 s a = some t) :
    Relation.ReflTransGen (Renewal.Step parts) (s.view 1) (t.view 1) := by
  cases a with
  | create | change | delete =>
    cases h
    have hstep (rows : List DeliveryRow) :
        Renewal.Step parts (s.view 1) { s.view 1 with source := rows, owing := true } :=
      .change rows
    simpa [State.view] using Relation.ReflTransGen.single (hstep _)
  | notify =>
    simp only [step] at h
    split at h <;> cases h
    have hstep : Renewal.Step parts (s.view 1) _ := .raise (decide (0 < s.owed - 1))
    have hup := signal_notified { s with owed := s.owed - 1 }
    apply Relation.ReflTransGen.single
    convert hstep using 1
    simp only [State.view, hup]
    rfl
  | hget =>
    simp only [step] at h
    split at h <;> cases h
    next hidle =>
    apply Relation.ReflTransGen.single
    apply Renewal.Step.look
    rw [State.view, hidle]
    rfl
  | clear =>
    simp only [step] at h
    split at h
    · next signal hpolled =>
      have hawake : s.sleeping = false := by
        cases hsleeping : s.sleeping with
        | false => rfl
        | true =>
          have hreloading := hs hsleeping
          rw [hpolled] at hreloading
          cases hreloading
      have hdown := signal_cleared s 1
      have hlooked : (s.view 1).reader = .looked (signal == 1) := by
        rw [State.view, hpolled]
        rfl
      simp only [hawake, Bool.not_false, Bool.true_and, beq_iff_eq] at h
      split at h <;> cases h
      · next hsignal =>
        rw [hsignal] at hlooked
        have hstep : Renewal.Step parts (s.view 1) _ := .takeDown hlooked
        apply Relation.ReflTransGen.single
        convert hstep using 1
        simp only [State.view, hdown]
        rfl
      · next hsignal =>
        have hunset : signalOf (s.signal (deliveryKey 1)) ≠ 1 := by
          rcases hguard with hset | hunset
          · rw [hpolled] at hset
            cases hset
            exact absurd rfl hsignal
          · exact hunset
        have hfalse : (s.view 1).up = false := by simpa [State.view] using hunset
        rw [beq_eq_false_iff_ne.mpr hsignal] at hlooked
        have hstep : Renewal.Step parts (s.view 1) _ := .pass hlooked hfalse
        apply Relation.ReflTransGen.single
        convert hstep using 1
        have hup : (signalOf (s.signal (deliveryKey 1)) == 1) = false := hfalse
        simp only [State.view, hdown, hup]
        rfl
    · cases h
  | reload answer alloc =>
    simp only [step] at h
    split at h
    · next hreloading =>
      split at h <;> cases h
      next hanswer =>
      have hview : (s.view 1).reader = .renewing [()] := by
        rw [State.view, hreloading]
        rfl
      cases answer with
      | none => exact hguard.elim
      | some answer =>
        have hrenews := upToDate_lambReload (hanswer answer rfl) hguard s.delivery
        refine Relation.ReflTransGen.tail (.single (Renewal.Step.renew hview hrenews)) ?_
        exact Renewal.Step.finish rfl
    · cases h

/-! ## Where a reply goes -/

/-- The account that the routes give for a code is one that a row of the table gives for it, and
none if there is no such row. -/
def RoutedBy (rows : List DeliveryRow) (delivery : List LambDelivery) : Prop :=
  ∀ (pcre : Bytes → Bytes → Bool) (spcode : Bytes),
    (∃ row ∈ rows, Relay.Delivery.lambCheckDelivery pcre row.entry spcode = true ∧
      Relay.Delivery.target pcre delivery spcode = row.target) ∨
    (∀ row ∈ rows, Relay.Delivery.lambCheckDelivery pcre row.entry spcode = false) ∧
      Relay.Delivery.target pcre delivery spcode = 0

theorem UpToDate.routedBy {rows : List DeliveryRow} {delivery : List LambDelivery}
    (h : UpToDate rows delivery) : RoutedBy rows delivery := by
  intro pcre spcode
  cases hfind : delivery.find? (Relay.Delivery.lambCheckDelivery pcre · spcode) with
  | none =>
    right
    refine ⟨fun row hrow => ?_, by rw [Relay.Delivery.target, hfind]; rfl⟩
    have hmem : row.entry ∈ delivery := h.mem_iff.mpr (List.mem_map_of_mem hrow)
    simpa using List.find?_eq_none.mp hfind row.entry hmem
  | some d =>
    left
    have hmem := h.mem_iff.mp (List.mem_of_find?_eq_some hfind)
    obtain ⟨row, hrow, rfl⟩ := List.mem_map.mp hmem
    refine ⟨row, hrow, ?_, ?_⟩
    · simpa using List.find?_some hfind
    rw [Relay.Delivery.target, hfind]
    exact atoi_decimalInt row.target

def firstRoute : DeliveryRow := ⟨1, (strncpy (ascii "^1069") 127).column, 9⟩

def secondRoute : DeliveryRow := ⟨2, (strncpy (ascii "^1065") 127).column, 8⟩

/-- A route is added. The first poll comes too early, and the second one renews the routes. -/
def addedRoute : List Action :=
  [.create secondRoute, .hget, .clear, .notify, .hget, .clear,
    .reload (some [secondRoute, firstRoute]) fun _ => true]

end LambGateway.Reload.Routes
