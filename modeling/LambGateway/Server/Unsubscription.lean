import LambGateway.Relay.Downlink
import LambGateway.Server.Storage
import LambGateway.Server.Unsubscribe
import LambGateway.Server.WorkLoop

/-!
# From a reply to a refusal

The deliver loop of a server queues a subscriber's reply for the store loop. If its text asks to
unsubscribe, the store loop queues the number for the unsubscribe loop, which writes the key that
the work loop looks up before it sends a message. The loops are threads of their own, and the
servers of all accounts share the nodes.
-/

namespace LambGateway.Server.Unsubscription

open Framework

/-! ## The text of a reply -/

theorem phone_fits : 11 ≤ 20 := by decide

/-- The record that `lamb_deliver_loop` queues. -/
def deliverRecord (account : LambAccount) (dpack : Deliver) : LambDeliver :=
  let deliver := Relay.Server.lambDeliverLoop account dpack
  { account := account.id
    company := account.company
    id := deliver.id
    phone := (strncpy deliver.phone 11).widen 20 phone_fits
    spcode := strncpy deliver.spcode 20
    serviceid := strncpy deliver.serviceid 10
    msgfmt := deliver.msgfmt
    content := Content.ofBytes deliver.content }

/-- The content in UTF-8, `none` where `lamb_store_loop` skips the record. -/
def storedContent (lib : IconvLibrary) (d : LambDeliver) : Option Bytes :=
  (convertContent lib d.msgfmt ⟨d.content.bytes.length, d.content.bytes⟩).map Payload.content

/-- The memory from the content on: the array is cleared, and `behind` is what follows it. -/
def contentMemory (content behind : Bytes) : Bytes :=
  content ++ List.replicate (160 - content.length) 0 ++ behind

def lambCheckUnsubval (content : Bytes) : Bool :=
  let text := cstr content
  strstr text (ascii "t") || strstr text (ascii "T") || strstr text (ascii "td") ||
    strstr text (ascii "TD") || strstr text [0xE9, 0x80, 0x80] ||
    strstr text [0xE9, 0x80, 0x80, 0xE8, 0xAE, 0xA2]

/-- The text has a t, small or capital, or the character U+9000. -/
def Withdraws (text : Bytes) : Prop := 116 ∈ text ∨ 84 ∈ text ∨ [0xE9, 0x80, 0x80] <:+: text

instance (text : Bytes) : Decidable (Withdraws text) :=
  decidable_of_iff (116 ∈ text ∨ 84 ∈ text ∨ strstr text [0xE9, 0x80, 0x80] = true)
    (by rw [strstr_iff]; rfl)

theorem mem_of_strstr {text needle : Bytes} {b : UInt8} (h : strstr text needle = true)
    (hb : b ∈ needle) : b ∈ text :=
  ((strstr_iff text needle).mp h).subset hb

theorem strstr_of_mem {text : Bytes} {b : UInt8} (h : b ∈ text) : strstr text [b] = true := by
  obtain ⟨front, behind, rfl⟩ := List.append_of_mem h
  exact (strstr_iff _ _).mpr ⟨front, behind, by simp⟩

/-- The longer patterns of `lamb_check_unsubval` find nothing that the shorter ones do not. -/
theorem lambCheckUnsubval_iff (content : Bytes) :
    lambCheckUnsubval content = true ↔ Withdraws (cstr content) := by
  simp only [lambCheckUnsubval, Bool.or_eq_true]
  constructor
  · rintro (((((h | h) | h) | h) | h) | h)
    · exact .inl (mem_of_strstr h (by decide))
    · exact .inr (.inl (mem_of_strstr h (by decide)))
    · exact .inl (mem_of_strstr h (by decide))
    · exact .inr (.inl (mem_of_strstr h (by decide)))
    · exact .inr (.inr ((strstr_iff _ _).mp h))
    · have hshort : [0xE9, 0x80, 0x80] <:+: [0xE9, 0x80, 0x80, 0xE8, 0xAE, (0xA2 : UInt8)] :=
        ⟨[], [0xE8, 0xAE, 0xA2], rfl⟩
      exact .inr (.inr (hshort.trans ((strstr_iff _ _).mp h)))
  · rintro (h | h | h)
    · exact .inl (.inl (.inl (.inl (.inl (strstr_of_mem h)))))
    · exact .inl (.inl (.inl (.inl (.inr (strstr_of_mem h)))))
    · exact .inl (.inr ((strstr_iff _ _).mpr h))

theorem Withdraws.of_prefix {text text' : Bytes} (h : Withdraws text) (hp : text <+: text') :
    Withdraws text' := by
  rcases h with h | h | h
  · exact .inl (hp.subset h)
  · exact .inr (.inl (hp.subset h))
  · exact .inr (.inr (h.trans hp.isInfix))

theorem cstr_prefix_append (text rest : Bytes) : cstr text <+: cstr (text ++ rest) := by
  by_cases h : 0 ∈ text
  · exact ⟨[], (List.append_nil _).trans (cstr_append_of_nul h rest).symm⟩
  · rw [cstr_append_of_no_nul h, cstr_eq_self h]
    exact List.prefix_append _ _

/-! ## The loops of all servers -/

/-- The accounts that the servers have loaded, and the conversions. -/
structure Setup where
  accounts : Int32 → LambAccount
  iconv : IconvLibrary

/-- The server of an account: the options of the account, the storage queue with what it has
written, the unsubscribe queue, in which a number that could not be copied is `NULL`, and the
replies received. -/
structure Process where
  options : Int32
  storage : Storage.State
  unsubscribe : List (Option Bytes)
  received : List Deliver

structure State where
  nodes : NumberCaches Bytes
  servers : Int32 → Process

def State.init (nodes : NumberCaches Bytes) (options : Int32 → Int32) : State :=
  ⟨nodes, fun a => ⟨options a, .init, [], []⟩⟩

inductive Action where
  | reload (a : Int32) (options : Int32)
  /-- A step of the work loop or of the deliver loop that queues a message or a report. -/
  | queue (a : Int32) (action : Storage.Action)
  | deliver (a : Int32) (dpack : Deliver) (alloc : Bool)
  | store (a : Int32) (behind : Bytes) (strdup node : Bool)
  | unsubscribe (a : Int32) (executed : Bool)

/-- What the store loop queues for the unsubscribe loop on account of a record. -/
def unsubscribing (lib : IconvLibrary) (options : Int32) (behind : Bytes) (strdup node : Bool) :
    Storage.Record → List (Option Bytes)
  | .deliver d =>
    match storedContent lib d with
    | none => []
    | some content =>
      if options &&& (1 <<< (3 : Int32)) != 0 &&
          lambCheckUnsubval (contentMemory content behind) && node then
        [if strdup then some d.phone.text else none]
      else []
  | .submit _ | .report _ => []

def State.put (s : State) (a : Int32) (server : Process) : State :=
  { s with servers := Function.update s.servers a server }

def step (setup : Setup) (s : State) : Action → Option State
  | .reload a options => some (s.put a { s.servers a with options })
  | .queue a action =>
    match action with
    | .deliver _ _ | .store => none
    | action => (Storage.step (s.servers a).storage action).map fun storage =>
      s.put a { s.servers a with storage }
  | .deliver a dpack alloc =>
    let d := deliverRecord (setup.accounts a) dpack
    (Storage.step (s.servers a).storage (.deliver d alloc)).map fun storage =>
      s.put a { s.servers a with storage, received := (s.servers a).received ++ [dpack] }
  | .store a behind strdup node =>
    let server := s.servers a
    match server.storage.storage with
    | [] => none
    | r :: _ => (Storage.step server.storage .store).map fun storage =>
      s.put a
        { server with
          storage
          unsubscribe := server.unsubscribe ++
            unsubscribing setup.iconv server.options behind strdup node r }
  | .unsubscribe a executed =>
    let server := s.servers a
    match server.unsubscribe with
    | [] => none
    | none :: unsubscribe => some (s.put a { server with unsubscribe })
    | some val :: unsubscribe =>
      let nodes := if executed then lambUnsubscribeLoop s.nodes a val else s.nodes
      some { s.put a { server with unsubscribe } with nodes }

/-! ## The nodes -/

theorem lambCheckUnsubscribe_congr (nodes : NumberCaches Bytes) (a : Int32) {v w : Bytes}
    (h : atol v = atol w) : lambCheckUnsubscribe nodes a v = lambCheckUnsubscribe nodes a w := by
  rw [lambCheckUnsubscribe, lambCheckUnsubscribe, (phoneOf_eq_iff v w).mpr h]

/-- A key that is written makes its own number known and no other one. -/
theorem lambCheckUnsubscribe_lambUnsubscribeLoop (nodes : NumberCaches Bytes) (a b : Int32)
    (val number : Bytes) :
    lambCheckUnsubscribe (lambUnsubscribeLoop nodes b val) a number = true ↔
      lambCheckUnsubscribe nodes a number = true ∨
        b = a ∧ atol val = atol number ∧ atol number ≠ 0 := by
  rw [lambCheckUnsubscribe_iff, lambCheckUnsubscribe_iff, entries_lambUnsubscribeLoop,
    ← phoneOf_pos_iff, ← phoneOf_eq_iff]
  by_cases hnew : b = a ∧ phoneOf val = phoneOf number
  · obtain ⟨rfl, hphone⟩ := hnew
    rw [hphone]
    by_cases hpos : 0 < phoneOf number
    · rw [if_pos hpos, Function.update_self]
      exact iff_of_true ⟨hpos, rfl⟩ (.inr ⟨rfl, rfl, hpos⟩)
    · exact iff_of_false (fun h => hpos h.1) fun h => h.elim (fun h => hpos h.1) fun h => hpos h.2.2
  · have hother : (a, phoneOf number) ≠ (b, phoneOf val) := by
      intro h
      obtain ⟨ha, hp⟩ := Prod.mk.inj h
      exact hnew ⟨ha.symm, hp.symm⟩
    have hnot : ¬(b = a ∧ phoneOf val = phoneOf number ∧ 0 < phoneOf number) :=
      fun h => hnew ⟨h.1, h.2.1⟩
    rw [or_iff_left hnot]
    split
    · rw [Function.update_of_ne hother]
    · rfl

/-! ## What a reply asks for -/

section Replies

variable (setup : Setup) (a : Int32)

/-- The number that is unsubscribed on account of a reply. -/
def number (dpack : Deliver) : Bytes := (strncpy dpack.phone 11).text

/-- The text of the reply, converted, asks to unsubscribe. -/
def Asks (dpack : Deliver) : Prop :=
  ∃ content, storedContent setup.iconv (deliverRecord (setup.accounts a) dpack) = some content ∧
    Withdraws (cstr content)

/-- The text asks to unsubscribe if it is read on into the memory behind it. -/
def MayAsk (dpack : Deliver) : Prop :=
  ∃ content, storedContent setup.iconv (deliverRecord (setup.accounts a) dpack) = some content ∧
    ∃ behind, Withdraws (cstr (contentMemory content behind))

def Asked (received : List Deliver) (val : Bytes) : Prop :=
  ∃ dpack ∈ received, MayAsk setup a dpack ∧ number dpack = val

end Replies

theorem Asks.withdraws {content : Bytes} (h : Withdraws (cstr content)) (behind : Bytes) :
    Withdraws (cstr (contentMemory content behind)) := by
  refine h.of_prefix ?_
  rw [contentMemory, List.append_assoc]
  exact cstr_prefix_append _ _

/-- A text that is shorter than the array ends within it. -/
theorem mayAsk_iff_asks {setup : Setup} {a : Int32} {dpack : Deliver}
    (hshort : ∀ content,
      storedContent setup.iconv (deliverRecord (setup.accounts a) dpack) = some content →
        content.length < 160) : MayAsk setup a dpack ↔ Asks setup a dpack := by
  constructor
  · rintro ⟨content, hcontent, behind, h⟩
    refine ⟨content, hcontent, ?_⟩
    have hlen := hshort content hcontent
    obtain ⟨n, hn⟩ : ∃ n, 160 - content.length = n + 1 := ⟨159 - content.length, by omega⟩
    rw [contentMemory, hn, List.replicate_succ, List.append_assoc, List.cons_append] at h
    by_cases hnul : 0 ∈ content
    · rwa [cstr_append_of_nul hnul] at h
    · rwa [cstr_of_no_nul hnul, ← cstr_eq_self hnul] at h
  · rintro ⟨content, hcontent, h⟩
    exact ⟨content, hcontent, [], Asks.withdraws h []⟩

theorem Asked.mono {setup : Setup} {a : Int32} {received received' : List Deliver}
    (hsub : received ⊆ received') {val : Bytes} (h : Asked setup a received val) :
    Asked setup a received' val := by
  obtain ⟨dpack, hmem, hrest⟩ := h
  exact ⟨dpack, hsub hmem, hrest⟩

theorem mem_unsubscribing {lib : IconvLibrary} {options : Int32} {behind : Bytes}
    {strdup node : Bool} {r : Storage.Record} {val : Bytes}
    (h : some val ∈ unsubscribing lib options behind strdup node r) :
    ∃ d content, r = .deliver d ∧ storedContent lib d = some content ∧
      Withdraws (cstr (contentMemory content behind)) ∧ val = d.phone.text := by
  cases r with
  | submit m => cases h
  | report r => cases h
  | deliver d =>
    cases hcontent : storedContent lib d with
    | none =>
      simp only [unsubscribing, hcontent] at h
      cases h
    | some content =>
      simp only [unsubscribing, hcontent] at h
      split at h
      · next hasks =>
        simp only [Bool.and_eq_true, lambCheckUnsubval_iff] at hasks
        refine ⟨d, content, rfl, hcontent, hasks.1.2, ?_⟩
        cases strdup with
        | true => simpa using h
        | false => simp at h
      · cases h

theorem unsubscribing_of_asks {setup : Setup} {a : Int32} {options : Int32} {dpack : Deliver}
    (h : Asks setup a dpack) (hoption : options &&& (1 <<< (3 : Int32)) ≠ 0) (behind : Bytes) :
    unsubscribing setup.iconv options behind true true
      (.deliver (deliverRecord (setup.accounts a) dpack)) = [some (number dpack)] := by
  obtain ⟨content, hcontent, hasks⟩ := h
  have hcheck := (lambCheckUnsubval_iff _).mpr (Asks.withdraws hasks behind)
  simp only [unsubscribing, hcontent]
  rw [if_pos (by simp [hoption, hcheck])]
  rfl

/-! ## The storage queue -/

theorem storage_queue {q q' : Storage.State} {action : Storage.Action}
    (h : Storage.step q action = some q') (hdeliver : ∀ d alloc, action ≠ .deliver d alloc)
    (hstore : action ≠ .store) (d : LambDeliver) :
    Storage.Record.deliver d ∈ q'.storage ↔ Storage.Record.deliver d ∈ q.storage := by
  have hpush (r : Storage.Record) (alloc : Bool) (hr : Storage.Record.deliver d ≠ r) :
      Storage.Record.deliver d ∈ Storage.push q.storage r alloc ↔
        Storage.Record.deliver d ∈ q.storage := by
    cases alloc with
    | true => simp [Storage.push, hr]
    | false => rfl
  cases action with
  | ack m =>
    simp only [Storage.step] at h
    split at h <;> cases h
    rfl
  | save alloc =>
    simp only [Storage.step] at h
    split at h <;> cases h
    exact hpush _ alloc (by simp)
  | report r alloc =>
    cases h
    exact hpush _ alloc (by simp)
  | deliver d alloc => exact absurd rfl (hdeliver d alloc)
  | store => exact absurd rfl hstore

/-- What a step does to the server of one account; the others are left as they are. -/
inductive Move (setup : Setup) (a : Int32) (s : State) : Action → State → Prop
  | reload (options : Int32) :
    Move setup a s (.reload a options) (s.put a { s.servers a with options })
  | queue {action : Storage.Action} {storage : Storage.State}
    (h : ∀ d, Storage.Record.deliver d ∈ storage.storage ↔
      Storage.Record.deliver d ∈ (s.servers a).storage.storage) :
    Move setup a s (.queue a action) (s.put a { s.servers a with storage })
  | deliver (dpack : Deliver) (alloc : Bool) {storage : Storage.State}
    (h : storage.storage = Storage.push (s.servers a).storage.storage
      (.deliver (deliverRecord (setup.accounts a) dpack)) alloc) :
    Move setup a s (.deliver a dpack alloc)
      (s.put a { s.servers a with storage, received := (s.servers a).received ++ [dpack] })
  | store (behind : Bytes) (strdup node : Bool) {r : Storage.Record} {storage : Storage.State}
    (h : (s.servers a).storage.storage = r :: storage.storage) :
    Move setup a s (.store a behind strdup node)
      (s.put a
        { s.servers a with
          storage
          unsubscribe := (s.servers a).unsubscribe ++
            unsubscribing setup.iconv (s.servers a).options behind strdup node r })
  | skip (executed : Bool) {val : Option Bytes} {unsubscribe : List (Option Bytes)}
    (h : (s.servers a).unsubscribe = val :: unsubscribe) (hval : executed = true → val = none) :
    Move setup a s (.unsubscribe a executed) (s.put a { s.servers a with unsubscribe })
  | write {val : Bytes} {unsubscribe : List (Option Bytes)}
    (h : (s.servers a).unsubscribe = some val :: unsubscribe) :
    Move setup a s (.unsubscribe a true)
      { s.put a { s.servers a with unsubscribe } with nodes := lambUnsubscribeLoop s.nodes a val }

theorem step_move {setup : Setup} {s t : State} {act : Action} (h : step setup s act = some t) :
    ∃ a, Move setup a s act t := by
  cases act with
  | reload a options =>
    cases h
    exact ⟨a, .reload options⟩
  | queue a action =>
    cases action with
    | deliver | store => cases h
    | report r alloc =>
      cases h
      have hstep : Storage.step (s.servers a).storage (.report r alloc) = some _ := rfl
      exact ⟨a, .queue (storage_queue hstep (by simp) (by simp))⟩
    | ack | save =>
      obtain ⟨storage, hstep, rfl⟩ := Option.map_eq_some_iff.mp h
      exact ⟨a, .queue (storage_queue hstep (by simp) (by simp))⟩
  | deliver a dpack alloc =>
    cases h
    exact ⟨a, .deliver dpack alloc rfl⟩
  | store a behind strdup node =>
    simp only [step] at h
    split at h
    · cases h
    · next r rest hstorage =>
      simp only [Storage.step, hstorage, Option.map_some] at h
      cases h
      exact ⟨a, .store behind strdup node hstorage⟩
  | unsubscribe a executed =>
    simp only [step] at h
    split at h
    · cases h
    · next unsubscribe hunsubscribe =>
      cases h
      exact ⟨a, .skip executed hunsubscribe fun _ => rfl⟩
    · next val unsubscribe hunsubscribe =>
      cases h
      cases executed with
      | true => exact ⟨a, .write hunsubscribe⟩
      | false => exact ⟨a, .skip false hunsubscribe (by simp)⟩

/-! ## Nobody is unsubscribed who has not asked -/

/-- Where the replies and the numbers in the queues of a server come from. -/
structure Process.Sound (setup : Setup) (a : Int32) (p : Process) : Prop where
  queued : ∀ d, Storage.Record.deliver d ∈ p.storage.storage →
    ∃ dpack ∈ p.received, d = deliverRecord (setup.accounts a) dpack
  waiting : ∀ val, some val ∈ p.unsubscribe → Asked setup a p.received val

structure Inv (setup : Setup) (nodes : NumberCaches Bytes) (s : State) : Prop where
  sound : ∀ a, (s.servers a).Sound setup a
  written : ∀ a val, lambCheckUnsubscribe s.nodes a val = true →
    lambCheckUnsubscribe nodes a val = true ∨
      ∃ val', Asked setup a (s.servers a).received val' ∧ atol val' = atol val

theorem inv_init (setup : Setup) (nodes : NumberCaches Bytes) (options : Int32 → Int32) :
    Inv setup nodes (.init nodes options) where
  sound _ := ⟨fun _ h => (nomatch h), fun _ h => nomatch h⟩
  written _ _ h := .inl h

section Inv

variable {setup : Setup} {nodes : NumberCaches Bytes} {s : State}

theorem servers_put (s : State) (a : Int32) (p : Process) : (s.put a p).servers a = p :=
  Function.update_self ..

theorem servers_put_of_ne (s : State) {a b : Int32} (hne : b ≠ a) (p : Process) :
    (s.put a p).servers b = s.servers b :=
  Function.update_of_ne hne ..

theorem inv_put (hs : Inv setup nodes s) {a : Int32} {p : Process} (hp : p.Sound setup a)
    (hsub : (s.servers a).received ⊆ p.received) : Inv setup nodes (s.put a p) := by
  constructor
  · intro b
    by_cases hb : b = a
    · rw [hb, servers_put]
      exact hp
    · rw [servers_put_of_ne s hb]
      exact hs.sound b
  · intro b val h
    refine (hs.written b val h).imp_right ?_
    rintro ⟨val', hasked, hval⟩
    refine ⟨val', ?_, hval⟩
    by_cases hb : b = a
    · rw [hb, servers_put]
      exact (hb ▸ hasked).mono hsub
    · rw [servers_put_of_ne s hb]
      exact hasked

theorem inv_move {t : State} {act : Action} {a : Int32} (hs : Inv setup nodes s)
    (h : Move setup a s act t) : Inv setup nodes t := by
  have hsound := hs.sound a
  cases h with
  | reload options =>
    exact inv_put hs ⟨hsound.queued, hsound.waiting⟩ (List.Subset.refl _)
  | queue hstorage =>
    refine inv_put hs ⟨fun d hd => ?_, hsound.waiting⟩ (List.Subset.refl _)
    exact hsound.queued d ((hstorage d).mp hd)
  | deliver dpack alloc hstorage =>
    have hsub : (s.servers a).received ⊆ (s.servers a).received ++ [dpack] :=
      List.subset_append_left _ _
    refine inv_put hs ⟨fun d hd => ?_, fun val hval => (hsound.waiting val hval).mono hsub⟩ hsub
    rw [hstorage] at hd
    have hold : Storage.Record.deliver d ∈ (s.servers a).storage.storage ∨
        d = deliverRecord (setup.accounts a) dpack := by
      cases alloc with
      | true => simpa [Storage.push] using hd
      | false => exact .inl hd
    rcases hold with hold | hnew
    · obtain ⟨dpack', hmem, hd'⟩ := hsound.queued d hold
      exact ⟨dpack', hsub hmem, hd'⟩
    · exact ⟨dpack, by simp, hnew⟩
  | store behind strdup node hstorage =>
    refine inv_put hs ⟨fun d hd => ?_, fun val hval => ?_⟩ (List.Subset.refl _)
    · apply hsound.queued d
      rw [hstorage]
      exact List.mem_cons_of_mem _ hd
    · rcases List.mem_append.mp hval with hval | hval
      · exact hsound.waiting val hval
      · obtain ⟨d, content, rfl, hcontent, hasks, rfl⟩ := mem_unsubscribing hval
        obtain ⟨dpack, hmem, rfl⟩ := hsound.queued d (by rw [hstorage]; exact List.mem_cons_self)
        exact ⟨dpack, hmem, ⟨content, hcontent, behind, hasks⟩, rfl⟩
  | skip executed hunsubscribe =>
    refine inv_put hs ⟨hsound.queued, fun val hval => ?_⟩ (List.Subset.refl _)
    apply hsound.waiting val
    rw [hunsubscribe]
    exact List.mem_cons_of_mem _ hval
  | @write val unsubscribe hunsubscribe =>
    have hrest : ∀ v, some v ∈ unsubscribe → Asked setup a (s.servers a).received v := by
      intro v hv
      apply hsound.waiting v
      rw [hunsubscribe]
      exact List.mem_cons_of_mem _ hv
    have hput := inv_put (p := { s.servers a with unsubscribe }) hs ⟨hsound.queued, hrest⟩
      (List.Subset.refl _)
    refine ⟨hput.sound, fun b v hv => ?_⟩
    rcases (lambCheckUnsubscribe_lambUnsubscribeLoop _ _ _ _ _).mp hv with hv | ⟨rfl, hval, -⟩
    · exact hput.written b v hv
    · refine .inr ⟨val, ?_, hval⟩
      rw [servers_put]
      exact hsound.waiting val (by rw [hunsubscribe]; exact List.mem_cons_self)

end Inv

/-! ## Everybody is unsubscribed who has asked -/

/-- The server of the account allocates what it needs, its commands are executed, and the option
is set when a reply is stored. -/
def Served (a : Int32) (s : State) : Action → Prop
  | .deliver b _ alloc => b = a → alloc = true
  | .store b _ strdup node => b = a → strdup = true ∧ node = true ∧
      (s.servers a).options &&& (1 <<< (3 : Int32)) ≠ 0
  | .unsubscribe b executed => b = a → executed = true
  | .reload _ _ | .queue _ _ => True

instance (a : Int32) (s : State) : ∀ act, Decidable (Served a s act)
  | .deliver b _ alloc => inferInstanceAs (Decidable (b = a → alloc = true))
  | .store b _ strdup node => inferInstanceAs (Decidable (b = a → strdup = true ∧ node = true ∧
      (s.servers a).options &&& (1 <<< (3 : Int32)) ≠ 0))
  | .unsubscribe b executed => inferInstanceAs (Decidable (b = a → executed = true))
  | .reload _ _ | .queue _ _ => isTrue trivial

/-- A reply is still to be stored, or its number to be written. -/
def Process.Pending (setup : Setup) (a : Int32) (p : Process) (dpack : Deliver) : Prop :=
  Storage.Record.deliver (deliverRecord (setup.accounts a) dpack) ∈ p.storage.storage ∨
    some (number dpack) ∈ p.unsubscribe

/-- Who has asked is on the way to be unsubscribed, or is so. -/
def Heard (setup : Setup) (a : Int32) (s : State) : Prop :=
  ∀ dpack ∈ (s.servers a).received, Asks setup a dpack → atol (number dpack) ≠ 0 →
    (s.servers a).Pending setup a dpack ∨ lambCheckUnsubscribe s.nodes a (number dpack) = true

theorem heard_put_of_ne {setup : Setup} {a b : Int32} {s : State} (hs : Heard setup a s)
    (hne : a ≠ b) (p : Process) : Heard setup a (s.put b p) := by
  intro dpack hmem hasks hnumber
  rw [servers_put_of_ne s hne] at hmem ⊢
  exact hs dpack hmem hasks hnumber

theorem heard_put {setup : Setup} {a : Int32} {s : State} (hs : Heard setup a s) {p : Process}
    (hreceived : p.received = (s.servers a).received)
    (hpending : ∀ dpack, Asks setup a dpack → (s.servers a).Pending setup a dpack →
      p.Pending setup a dpack) : Heard setup a (s.put a p) := by
  intro dpack hmem hasks hnumber
  rw [servers_put] at hmem ⊢
  rw [hreceived] at hmem
  exact (hs dpack hmem hasks hnumber).imp_left (hpending dpack hasks)

theorem heard_move {setup : Setup} {a b : Int32} {s t : State} {act : Action}
    (hs : Heard setup a s) (hserved : Served a s act) (h : Move setup b s act t) :
    Heard setup a t := by
  by_cases hb : b = a
  · subst hb
    cases h with
    | reload options => exact heard_put hs rfl fun _ _ hp => hp
    | queue hstorage =>
      exact heard_put hs rfl fun dpack _ hp => hp.imp_left (hstorage _).mpr
    | deliver dpack alloc hstorage =>
      obtain rfl : alloc = true := hserved rfl
      intro dpack' hmem hasks hnumber
      rw [servers_put] at hmem ⊢
      rw [Process.Pending, hstorage]
      rcases List.mem_append.mp hmem with hmem | hmem
      · refine (hs dpack' hmem hasks hnumber).imp_left (Or.imp_left ?_)
        exact List.mem_append_left _
      · rw [List.mem_singleton.mp hmem]
        exact .inl (.inl (List.mem_append_right _ (List.mem_singleton_self _)))
    | store behind strdup node hstorage =>
      obtain ⟨rfl, rfl, hoption⟩ := hserved rfl
      refine heard_put hs rfl fun dpack hasks hp => ?_
      rw [Process.Pending, hstorage] at hp
      rcases hp with hp | hp
      · rcases List.mem_cons.mp hp with hp | hp
        · right
          rw [← hp, unsubscribing_of_asks hasks hoption]
          exact List.mem_append_right _ (List.mem_singleton_self _)
        · exact .inl hp
      · exact .inr (List.mem_append_left _ hp)
    | skip executed hunsubscribe hval =>
      refine heard_put hs rfl fun dpack _ hp => hp.imp_right fun hp => ?_
      rw [hunsubscribe, hval (hserved rfl)] at hp
      simpa using hp
    | @write val unsubscribe hunsubscribe =>
      intro dpack hmem hasks hnumber
      have hcheck := lambCheckUnsubscribe_lambUnsubscribeLoop s.nodes b b val (number dpack)
      change dpack ∈ ((s.put b _).servers b).received at hmem
      change ((s.put b _).servers b).Pending setup b dpack ∨ _
      rw [servers_put] at hmem ⊢
      rcases hs dpack hmem hasks hnumber with (hp | hp) | hp
      · exact .inl (.inl hp)
      · rw [hunsubscribe] at hp
        rcases List.mem_cons.mp hp with hp | hp
        · cases hp
          exact .inr (hcheck.mpr (.inr ⟨rfl, rfl, hnumber⟩))
        · exact .inl (.inr hp)
      · exact .inr (hcheck.mpr (.inl hp))
  · have hother := fun p => heard_put_of_ne hs (Ne.symm hb) p
    cases h with
    | reload | queue | deliver | store | skip => exact hother _
    | write hunsubscribe =>
      intro dpack hmem hasks hnumber
      refine (hother _ dpack hmem hasks hnumber).imp_right fun hp => ?_
      exact (lambCheckUnsubscribe_lambUnsubscribeLoop ..).mpr (.inl hp)

/-! ## Runs -/

/-- A message is counted as one to an unsubscribed number only if the lookup has found it. -/
theorem passChecks_usb {env : Env} {alloc : Allocation} {message : Submit}
    (h : passChecks env alloc message = .error ⟨some .usb, 7⟩) :
    env.unsubscribe message.phone = true := by
  unfold passChecks at h
  split at h
  · cases h
  · split at h
    · cases h
    · split at h
      · next hfound => exact (Bool.and_eq_true_iff.mp hfound).2
      · split at h
        · cases h
        · next fromcode _ _ _ _ =>
          cases hconvert : convert env alloc message (fromcodeOf message.msgfmt) with
          | error r =>
            rw [hconvert] at h
            cases h
            exact absurd (convert_error_cause hconvert) (by decide)
          | ok m =>
            rw [hconvert] at h
            change checkText env alloc m = _ at h
            unfold checkText at h
            (repeat' split at h) <;> cases h

theorem passChecks_of_unsubscribe {env : Env} (hoption : env.hasOption 3 = true)
    (alloc : Allocation) {message : Submit} (h : env.unsubscribe message.phone = true) :
    ∃ r, passChecks env alloc message = .error r := by
  unfold passChecks
  split
  · exact ⟨_, rfl⟩
  · split
    · exact ⟨_, rfl⟩
    · rw [if_pos (by rw [hoption, h]; rfl)]
      exact ⟨_, rfl⟩

theorem found_step {setup : Setup} {s t : State} {act : Action} (h : step setup s act = some t)
    {a : Int32} {val : Bytes} (hfound : lambCheckUnsubscribe s.nodes a val = true) :
    lambCheckUnsubscribe t.nodes a val = true := by
  obtain ⟨b, hmove⟩ := step_move h
  cases hmove with
  | reload | queue | deliver | store | skip => exact hfound
  | write => exact (lambCheckUnsubscribe_lambUnsubscribeLoop ..).mpr (.inl hfound)

theorem none_lt {code : Nat} (h : none = some code) : code < 0x10000 := by cases h

def plainSetup : Setup where
  accounts a := ⟨a, strncpy (ascii "lambda") 7, strncpy (ascii "1069") 20, 1⟩
  iconv := ⟨⟨fun _ _ => none, fun _ => none, none_lt⟩, fun _ => true⟩

/-- A reply from the number 13800138000. -/
def replyFrom (id : UInt64) (text : String) : Deliver where
  id := id
  account := 1
  company := 1
  phone := ascii "13800138000"
  spcode := ascii "1069"
  serviceid := []
  msgfmt := 0
  length := Int32.ofNat text.length
  content := ascii text

/-- A subscriber says yes and then withdraws; another account's server comes in between. -/
def twoReplies : List Action :=
  [.deliver 1 (replyFrom 1 "YES") true, .deliver 1 (replyFrom 2 "TD") true, .store 1 [] true true,
    .deliver 2 (replyFrom 3 "YES") true, .store 1 [] true true, .store 2 [] true true,
    .unsubscribe 1 true]

def plainMessage : Submit where
  id := 4
  account := 1
  company := 1
  spid := ascii "901234"
  spcode := ascii "1069"
  phone := ascii "13800138000"
  msgfmt := 11
  length := 2
  content := ascii "hi"

/-- An account whose option for unsubscribed numbers is set, and no other one. -/
def plainEnv : Env where
  account := 1
  company := 1
  options := 8
  blacklist _ := false
  unsubscribe _ := false
  frequency _ := false
  iconv := plainSetup.iconv
  templates := []
  keywords := []
  pcre _ _ := false
  behind := []

end LambGateway.Server.Unsubscription
