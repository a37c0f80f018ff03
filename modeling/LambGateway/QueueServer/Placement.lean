import LambGateway.QueueServer.Pool
import LambGateway.Reload.Tables

/-!
# Placement of replies

The delivery program matches the code of a reply against the entries of its table, in their
order, and puts the reply into the queue of the first entry's account, or on the list of replies
to store. The order of the entries is the order in which the database returns the rows.
-/

namespace LambGateway.QueueServer.Placement

open Framework Pool Relay

/-- The loop over the entries, with the account found so far. -/
def searchDelivery (pcre : Bytes → Bytes → Bool) (spcode : Bytes) :
    List LambDelivery → Int32 → Int32
  | [], account => account
  | dt :: delivery, account =>
    if Delivery.lambCheckDelivery pcre dt spcode then dt.target
    else searchDelivery pcre spcode delivery account

/-- The queues of the accounts and the list of replies to store. -/
structure PlacementState where
  pool : List (Queue Message)
  storage : List LambDeliver

/-- Which allocations succeed: of the record, of a queue with its list, of the node that puts the
queue into the pool, and of the node for the record. -/
structure PlacementAllocs where
  record : Bool
  queue : Bool
  poolNode : Bool
  node : Bool

def PlacementAllocs.all : PlacementAllocs := ⟨true, true, true, true⟩

/-- `lamb_queue_push`, in the pool, to the queue at an index. -/
def pushIfNode {μ : Type} (pool : List (Queue μ)) (q : Nat) (m : μ) (node : Bool) :
    List (Queue μ) :=
  if node then lambQueuePush pool q m else pool

/-- A `LAMB_DELIVER` in `lamb_push_loop`. The length for the match is that of the packet's code;
`behind` is the memory behind the text in the record. -/
def lambPushLoop (pcre : Bytes → Bytes → Bool) (delivery : List LambDelivery) (behind : Bytes)
    (s : PlacementState) (d : Deliver) (alloc : PlacementAllocs) : PlacementState :=
  if alloc.record then
    let deliver := Delivery.lambPushLoop d
    let spcode := (deliver.spcode.text ++ behind).take (cstr d.spcode).length
    let account := searchDelivery pcre spcode delivery 0
    if 0 < account then
      match lambListFind s.pool account with
      | some q => { s with pool := pushIfNode s.pool q (.deliver deliver) alloc.node }
      | none =>
        if alloc.queue then
          if alloc.poolNode then
            let pool := s.pool ++ [lambQueueNew account]
            { s with pool := pushIfNode pool s.pool.length (.deliver deliver) alloc.node }
          else s
        else s
    else if alloc.node then { s with storage := s.storage ++ [deliver] }
    else s
  else s

/-! ## One reply -/

/-- The first entry of the table, in its order, whose pattern matches. -/
def FirstMatch (pcre : Bytes → Bytes → Bool) (delivery : List LambDelivery) (spcode : Bytes)
    (entry : LambDelivery) : Prop :=
  ∃ front rest, delivery = front ++ entry :: rest ∧
    (∀ dt ∈ front, pcre dt.rexp.text spcode = false) ∧ pcre entry.rexp.text spcode = true

/-- The record is appended once to the first queue of the account, or to a new queue behind the
others if there is none. -/
def AppendedTo {μ : Type} (account : Int32) (m : μ) (pool pool' : List (Queue μ)) : Prop :=
  (∃ before queue after, pool = before ++ queue :: after ∧ queue.id = account ∧
      (∀ other ∈ before, other.id ≠ account) ∧
      pool' = before ++ { queue with list := queue.list ++ [m] } :: after) ∨
    ((∀ queue ∈ pool, queue.id ≠ account) ∧ pool' = pool ++ [⟨account, [m]⟩])

theorem searchDelivery_eq (pcre : Bytes → Bytes → Bool) (spcode : Bytes)
    (delivery : List LambDelivery) (account : Int32) :
    searchDelivery pcre spcode delivery account =
      ((delivery.find? (Delivery.lambCheckDelivery pcre · spcode)).map
        LambDelivery.target).getD account := by
  induction delivery with
  | nil => rfl
  | cons dt delivery ih =>
    rw [searchDelivery, List.find?_cons]
    cases Delivery.lambCheckDelivery pcre dt spcode with
    | true => rfl
    | false => exact ih

theorem firstMatch_iff {pcre : Bytes → Bytes → Bool} {delivery : List LambDelivery}
    {spcode : Bytes} {entry : LambDelivery} :
    FirstMatch pcre delivery spcode entry ↔
      delivery.find? (Delivery.lambCheckDelivery pcre · spcode) = some entry := by
  rw [List.find?_eq_some_iff_append]
  simp only [FirstMatch, Delivery.lambCheckDelivery, Bool.not_eq_true']
  grind

theorem appendedTo_found {μ : Type} {pool : List (Queue μ)} {account : Int32} {q : Nat}
    (h : lambListFind pool account = some q) (m : μ) :
    AppendedTo account m pool (lambQueuePush pool q m) := by
  obtain ⟨before, queue, after, rfl, rfl, hid, hbefore⟩ := lambListFind_eq_some h
  exact .inl ⟨before, queue, after, rfl, hid, hbefore, lambQueuePush_append before after queue m⟩

theorem appendedTo_created {μ : Type} {pool : List (Queue μ)} {account : Int32}
    (h : lambListFind pool account = none) (m : μ) :
    AppendedTo account m pool
      (lambQueuePush (pool ++ [lambQueueNew account]) pool.length m) := by
  have hnew := lambQueuePush_append pool [] (lambQueueNew account) m
  exact .inr ⟨lambListFind_eq_none.mp h, hnew⟩

/-- The text that is matched is the packet's code, unless the record has cut it. -/
theorem matched_spcode {d : Deliver} (hlen : (cstr d.spcode).length ≤ 20) (behind : Bytes) :
    ((Delivery.lambPushLoop d).spcode.text ++ behind).take (cstr d.spcode).length =
      cstr d.spcode := by
  have htext : (Delivery.lambPushLoop d).spcode.text = cstr d.spcode :=
    List.take_of_length_le hlen
  rw [htext, List.take_left]

/-- The account of a reply decides between its queue and the storage list. -/
theorem lambPushLoop_all (pcre : Bytes → Bytes → Bool) (delivery : List LambDelivery)
    (behind : Bytes) (s : PlacementState) (d : Deliver) (hlen : (cstr d.spcode).length ≤ 20) :
    let account := Delivery.target pcre delivery (cstr d.spcode)
    let s' := lambPushLoop pcre delivery behind s d .all
    (0 < account →
      AppendedTo account (.deliver (Delivery.lambPushLoop d)) s.pool s'.pool ∧
        s'.storage = s.storage) ∧
      (¬ 0 < account →
        s'.pool = s.pool ∧ s'.storage = s.storage ++ [Delivery.lambPushLoop d]) := by
  intro account s'
  have hs' : s' = lambPushLoop pcre delivery behind s d .all := rfl
  unfold lambPushLoop at hs'
  have haccount : searchDelivery pcre (cstr d.spcode) delivery 0 = account :=
    searchDelivery_eq pcre (cstr d.spcode) delivery 0
  simp only [PlacementAllocs.all, if_true, matched_spcode hlen behind, haccount] at hs'
  constructor
  · intro hpos
    rw [if_pos hpos] at hs'
    cases hfind : lambListFind s.pool account with
    | some q =>
      simp only [hfind] at hs'
      rw [hs']
      exact ⟨appendedTo_found hfind _, rfl⟩
    | none =>
      simp only [hfind] at hs'
      rw [hs']
      exact ⟨appendedTo_created hfind _, rfl⟩
  · intro hpos
    rw [if_neg hpos] at hs'
    rw [hs']
    exact ⟨rfl, rfl⟩

/-- A reply whose first matching entry has an account goes once to the tail of the account's
queue, any other reply to the end of the storage list; nothing else changes. -/
theorem reply_placed (pcre : Bytes → Bytes → Bool) (delivery : List LambDelivery) (behind : Bytes)
    (s : PlacementState) (d : Deliver) (hlen : (cstr d.spcode).length ≤ 20) :
    let s' := lambPushLoop pcre delivery behind s d .all
    (∀ entry, FirstMatch pcre delivery (cstr d.spcode) entry → 0 < entry.target →
      AppendedTo entry.target (.deliver (Delivery.lambPushLoop d)) s.pool s'.pool ∧
        s'.storage = s.storage) ∧
      ((∀ entry, FirstMatch pcre delivery (cstr d.spcode) entry → entry.target ≤ 0) →
        s'.pool = s.pool ∧ s'.storage = s.storage ++ [Delivery.lambPushLoop d]) := by
  obtain ⟨hqueue, hstorage⟩ := lambPushLoop_all pcre delivery behind s d hlen
  unfold Delivery.target at hqueue hstorage
  constructor
  · intro entry hentry hpos
    rw [firstMatch_iff.mp hentry] at hqueue
    exact hqueue hpos
  · intro hnone
    apply hstorage
    cases hfind : delivery.find? (Delivery.lambCheckDelivery pcre · (cstr d.spcode)) with
    | none => decide
    | some entry => exact Int32.not_lt.mpr (hnone entry (firstMatch_iff.mpr hfind))

/-- A reply to an account that has no queue yet. -/
theorem reply_placed_created :
    let s' := lambPushLoop (fun rexp _ => rexp == ascii "^.*$") [⟨1, strncpy (ascii "^.*$") 127, 7⟩]
      [] ⟨[⟨3, []⟩], []⟩ ⟨5, 0, 0, ascii "13800000000", ascii "10690008", [], 0, 2, ascii "hi"⟩ .all
    (s'.pool.map fun queue => (queue.id, queue.list.length)) = [(3, 0), (7, 1)] := by
  intro s'
  have hfirst : FirstMatch (fun rexp _ => rexp == ascii "^.*$")
      [⟨1, strncpy (ascii "^.*$") 127, 7⟩] (cstr (ascii "10690008"))
      ⟨1, strncpy (ascii "^.*$") 127, 7⟩ := firstMatch_iff.mpr (by decide)
  have hplaced := (reply_placed (fun rexp _ => rexp == ascii "^.*$")
    [⟨1, strncpy (ascii "^.*$") 127, 7⟩] [] ⟨[⟨3, []⟩], []⟩
    ⟨5, 0, 0, ascii "13800000000", ascii "10690008", [], 0, 2, ascii "hi"⟩ (by decide)).1 _ hfirst
    (by decide)
  rcases hplaced.1 with ⟨before, queue, after, hpool, hid, -, -⟩ | ⟨-, hnew⟩
  · have hmem : queue ∈ before ++ queue :: after := List.mem_append_right _ List.mem_cons_self
    rw [← hpool] at hmem
    rw [List.mem_singleton.mp hmem] at hid
    exact absurd hid (by decide)
  · show (s'.pool.map fun queue => (queue.id, queue.list.length)) = _
    rw [show s'.pool = _ from hnew]
    rfl

/-! ## The order of the rows -/

/-- The account that replies to a code go to when the table has been loaded from rows; `none` is
the storage list. -/
def routed (pcre : Bytes → Bytes → Bool) (rows : List Reload.DeliveryRow) (spcode : Bytes) :
    Option Int32 :=
  let delivery := (Reload.lambGetDelivery (fun _ => true) [] (some rows)).2
  let account := Delivery.target pcre delivery spcode
  if 0 < account then some account else none

/-- The account of a row, if it has one. -/
def rowAccount (r : Reload.DeliveryRow) : Option Int32 :=
  if 0 < r.target then some r.target else none

/-- The pattern of the row, as far as the table holds it, matches the code. -/
def rowMatches (pcre : Bytes → Bytes → Bool) (spcode : Bytes) (r : Reload.DeliveryRow) : Bool :=
  pcre (r.rexp.text.take 127) spcode

theorem routed_eq (pcre : Bytes → Bytes → Bool) (rows : List Reload.DeliveryRow)
    (spcode : Bytes) :
    routed pcre rows spcode = (rows.find? (rowMatches pcre spcode)).bind rowAccount := by
  have htable : (Reload.lambGetDelivery (fun _ => true) [] (some rows)).2 =
      rows.map Reload.DeliveryRow.entry := by
    cases rows with
    | nil => rfl
    | cons row rows =>
      have halloc : Allocated (fun _ => true) (row :: rows) := fun _ _ => rfl
      have hfetch : (Reload.lambGetDelivery (fun _ => true) [] (some (row :: rows))).2 =
          pushRows Reload.DeliveryRow.entry (fun _ => true) [] (row :: rows) := rfl
      rw [hfetch, pushRows_of_allocated _ _ halloc, List.nil_append]
  have hentry (r : Reload.DeliveryRow) :
      Delivery.lambCheckDelivery pcre r.entry spcode = rowMatches pcre spcode r := by
    have hrexp : r.entry.rexp.text = r.rexp.text.take 127 := by
      change (cstr r.rexp.text).take 127 = _
      rw [cstr_eq_self r.rexp.no_nul]
    rw [Delivery.lambCheckDelivery, hrexp, rowMatches]
  have htarget (r : Reload.DeliveryRow) : r.entry.target = r.target := atoi_decimalInt r.target
  unfold routed Delivery.target
  dsimp only
  rw [htable, List.find?_map]
  simp only [Function.comp_def, hentry]
  cases rows.find? (rowMatches pcre spcode) with
  | none => rfl
  | some r =>
    simp only [Option.map_some, Option.getD_some, htarget]
    rfl

/-- The routes are the same in every order of the rows if and only if, for every code, all rows
that match it have one account. -/
theorem route_independent_iff (pcre : Bytes → Bytes → Bool) (rows : List Reload.DeliveryRow) :
    (∀ xs ys, xs.Perm rows → ys.Perm rows →
        ∀ spcode, routed pcre xs spcode = routed pcre ys spcode) ↔
      ∀ spcode, ∀ x ∈ rows, ∀ y ∈ rows, rowMatches pcre spcode x = true →
        rowMatches pcre spcode y = true → rowAccount x = rowAccount y := by
  have hcode (spcode : Bytes) := find?_bind_perm_iff (rowMatches pcre spcode) rowAccount rows
  simp only [routed_eq]
  constructor
  · intro h spcode
    apply (hcode spcode).mp
    exact fun xs ys hxs hys => h xs ys hxs hys spcode
  · intro h xs ys hxs hys spcode
    exact (hcode spcode).mpr (h spcode) xs ys hxs hys

/-- A row for every code and a row for the codes that begin with some digits: the first one that
the database returns takes them all, or leaves them. -/
theorem route_depends_on_order :
    ¬ ∀ (pcre : Bytes → Bytes → Bool) (rows xs ys : List Reload.DeliveryRow), xs.Perm rows →
      ys.Perm rows → ∀ spcode, routed pcre xs spcode = routed pcre ys spcode := by
  intro h
  let every : Reload.DeliveryRow := ⟨1, ⟨ascii "^.*$", by decide⟩, 1⟩
  let special : Reload.DeliveryRow := ⟨2, ⟨ascii "^10690008", by decide⟩, 2⟩
  let pcre (rexp spcode : Bytes) : Bool :=
    rexp == ascii "^.*$" || rexp == 94 :: spcode.take 8
  have hsame := h pcre [every, special] [every, special] [special, every] (List.Perm.refl _) (List.Perm.swap ..)
    (ascii "106900081")
  revert hsame
  decide

end LambGateway.QueueServer.Placement
