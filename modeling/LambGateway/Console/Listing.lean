import LambGateway.Console.Statistics
import LambGateway.Reload.Tables
import LambGateway.Sp.Sender

/-!
# The lists of the console

Five commands of the console list the accounts or the gateways. The database function writes
pointers into an array of the command, and the command goes over the array up to the number that
the function returns. An access outside the array, or through a null pointer, has no result.
-/

namespace LambGateway.Console.Listing

open Framework

/-! ## Rows -/

structure AccountRow extends Reload.AccountRow where
  password : ColumnText

/-- `lamb_account_t` -/
structure ListedAccount extends Reload.LoadedAccount where
  password : CString 63

def AccountRow.entry (r : AccountRow) : ListedAccount where
  toLoadedAccount := r.toAccountRow.entry
  password := strncpy r.password.text 63

structure GatewayRow where
  id : Int32
  type : Int32
  name : ColumnText
  host : ColumnText
  port : Int32
  username : ColumnText
  password : ColumnText
  spid : ColumnText
  spcode : ColumnText
  encoding : Int32
  extended : Int32
  concurrent : Int32

/-- `lamb_gateway_t` -/
structure ListedGateway extends Sp.Sender.Gateway where
  id : Int32
  type : Int32
  name : CString 11
  host : CString 31
  port : Int32
  username : CString 31
  password : CString 63
  concurrent : Int32

def GatewayRow.entry (r : GatewayRow) : ListedGateway where
  id := atoi (decimalInt r.id.toInt)
  type := atoi (decimalInt r.type.toInt)
  name := strncpy r.name.text 11
  host := strncpy r.host.text 31
  port := atoi (decimalInt r.port.toInt)
  username := strncpy r.username.text 31
  password := strncpy r.password.text 63
  spid := strncpy r.spid.text 7
  spcode := strncpy r.spcode.text 20
  encoding := atoi (decimalInt r.encoding.toInt)
  extended := atoi (decimalInt r.extended.toInt) != 0
  concurrent := atoi (decimalInt r.concurrent.toInt)

/-- What the two queries return, `none` for one that fails. -/
structure Tables where
  accounts : Option (List AccountRow)
  gateways : Option (List GatewayRow)

/-! ## The database functions -/

section Listing

variable {ρ ε β : Type}

/-- The loop over the rows, from row `i` on. `calloc` says for which rows there is memory. -/
def storeRows (entry : ρ → ε) (calloc : Nat → Bool) (size : Nat) :
    Nat → List ρ → List (Option ε) → Option (List (Option ε))
  | _, [], array => some array
  | i, row :: rows, array =>
    if i < size then
      if calloc i then
        if i < array.length then
          storeRows entry calloc size (i + 1) rows (array.set i (some (entry row)))
        else none
      else storeRows entry calloc size (i + 1) rows array
    else some array

/-- A listing function: what it returns is the number of the rows. -/
def listRows (entry : ρ → ε) (query : Option (List ρ)) (calloc : Nat → Bool)
    (array : List (Option ε)) (size : Nat) : Option (Int × List (Option ε)) :=
  match query with
  | none => some (-1, array)
  | some rows => do
    let array ← storeRows entry calloc size 0 rows array
    some (rows.length, array)

def lambGetAccounts (db : Tables) (calloc : Nat → Bool) (accounts : List (Option ListedAccount))
    (size : Nat) : Option (Int × List (Option ListedAccount)) :=
  listRows AccountRow.entry db.accounts calloc accounts size

def lambGetGateways (db : Tables) (calloc : Nat → Bool) (gateways : List (Option ListedGateway))
    (size : Nat) : Option (Int × List (Option ListedGateway)) :=
  listRows GatewayRow.entry db.gateways calloc gateways size

/-! ## The commands -/

/-- The loop of a command, for `n` elements from `i` on. A command that checks its elements passes
over the null pointers. -/
def showRows (checked : Bool) (line : ε → List β) (array : List (Option ε)) :
    Nat → Nat → Option (List β)
  | 0, _ => some []
  | n + 1, i => do
    let element ← array[i]?
    match element with
    | some e => do
      let lines ← showRows checked line array n (i + 1)
      some (line e ++ lines)
    | none => if checked then showRows checked line array n (i + 1) else none

/-- What a command does with the result of a listing function. Without a row it prints that there
is no data. -/
def command (checked : Bool) (line : ε → List β) (listed : Option (Int × List (Option ε))) :
    Option (List β) := do
  let (len, array) ← listed
  if len < 1 then some [] else showRows checked line array len.toNat 0

/-- `lamb_account_t *accounts[128] = {NULL}`, and the same for the gateways -/
def noElements (ε : Type) : List (Option ε) := List.replicate 128 none

/-- What `lamb_check_client` and `lamb_check_channel` find in the cache. -/
structure LinkStatus where
  host : CString 15
  status : Bool
  speed : Int32
  error : Int32

def lambShowClient (check : Int32 → LinkStatus) (db : Tables) (calloc : Nat → Bool) :
    Option (List (ListedAccount × LinkStatus)) :=
  command true (fun a => if (check a.id).status then [(a, check a.id)] else [])
    (lambGetAccounts db calloc (noElements _) 128)

/-- `check` is `lamb_check_server`. The elements are not compared with `NULL`. -/
def lambShowServer (check : Int32 → Int32 × Bool) (cache : RedisNode) (db : Tables)
    (calloc : Nat → Bool) : Option (List (Int32 × (Int32 × Bool) × ServerStatistics)) :=
  command false (fun a => [(a.id, check a.id, Console.lambShowServer cache a.id)])
    (lambGetAccounts db calloc (noElements _) 128)

def lambShowAccount (db : Tables) (calloc : Nat → Bool) : Option (List ListedAccount) :=
  command true (fun a => [a]) (lambGetAccounts db calloc (noElements _) 128)

def lambShowGateway (db : Tables) (calloc : Nat → Bool) : Option (List ListedGateway) :=
  command true (fun g => [g]) (lambGetGateways db calloc (noElements _) 128)

def lambShowChannel (check : Int32 → LinkStatus) (db : Tables) (calloc : Nat → Bool) :
    Option (List (ListedGateway × LinkStatus)) :=
  command true (fun g => [(g, check g.id)]) (lambGetGateways db calloc (noElements _) 128)

/-! ## The array -/

/-- What the loop leaves at `k`: the record of a row, if there is memory for it. -/
def elementAfter (entry : ρ → ε) (calloc : Nat → Bool) (i : Nat) (rows : List ρ)
    (array : List (Option ε)) (k : Nat) : Option (Option ε) :=
  if i ≤ k ∧ k < array.length ∧ calloc k = true then
    (rows[k - i]?.map fun row => some (entry row)).or array[k]?
  else array[k]?

theorem elementAfter_nil (entry : ρ → ε) (calloc : Nat → Bool) (i : Nat)
    (array : List (Option ε)) (k : Nat) : elementAfter entry calloc i [] array k = array[k]? := by
  rw [elementAfter]
  split <;> rfl

theorem elementAfter_stored {entry : ρ → ε} {calloc : Nat → Bool} {i : Nat} {row : ρ}
    {array : List (Option ε)} (rows : List ρ) (hi : i < array.length) (hcalloc : calloc i = true)
    (k : Nat) :
    elementAfter entry calloc (i + 1) rows (array.set i (some (entry row))) k =
      elementAfter entry calloc i (row :: rows) array k := by
  rw [elementAfter, elementAfter, List.length_set]
  rcases lt_trichotomy k i with hlt | rfl | hgt
  · rw [if_neg (by omega), if_neg (by omega), List.getElem?_set_ne (by omega)]
  · rw [if_neg (by omega), if_pos ⟨le_rfl, hi, hcalloc⟩, List.getElem?_set_self hi, Nat.sub_self]
    rfl
  · obtain ⟨d, rfl⟩ : ∃ d, k = i + 1 + d := ⟨k - (i + 1), by omega⟩
    rw [List.getElem?_set_ne (by omega), Nat.add_sub_cancel_left,
      show i + 1 + d - i = d + 1 by omega, List.getElem?_cons_succ]
    simp [show i + 1 ≤ i + 1 + d by omega, show i ≤ i + 1 + d by omega]

theorem elementAfter_skipped {entry : ρ → ε} {calloc : Nat → Bool} {i : Nat} (row : ρ)
    {array : List (Option ε)} (rows : List ρ) (hcalloc : calloc i = false) (k : Nat) :
    elementAfter entry calloc (i + 1) rows array k =
      elementAfter entry calloc i (row :: rows) array k := by
  rw [elementAfter, elementAfter]
  rcases lt_trichotomy k i with hlt | rfl | hgt
  · rw [if_neg (by omega), if_neg (by omega)]
  · rw [if_neg (by omega), if_neg (by simp [hcalloc])]
  · obtain ⟨d, rfl⟩ : ∃ d, k = i + 1 + d := ⟨k - (i + 1), by omega⟩
    rw [Nat.add_sub_cancel_left, show i + 1 + d - i = d + 1 by omega, List.getElem?_cons_succ]
    simp [show i + 1 ≤ i + 1 + d by omega, show i ≤ i + 1 + d by omega]

/-- The loop stays inside the array, by induction on the rows. -/
theorem storeRows_spec (entry : ρ → ε) (calloc : Nat → Bool) (rows : List ρ) (i : Nat)
    (array : List (Option ε)) :
    ∃ result, storeRows entry calloc array.length i rows array = some result ∧
      result.length = array.length ∧ ∀ k, result[k]? = elementAfter entry calloc i rows array k := by
  induction rows generalizing i array with
  | nil => exact ⟨array, rfl, rfl, fun k => (elementAfter_nil entry calloc i array k).symm⟩
  | cons row rows ih =>
    rw [storeRows]
    by_cases hi : i < array.length
    · rw [if_pos hi]
      cases hcalloc : calloc i with
      | true =>
        obtain ⟨result, hrun, hlen, hget⟩ := ih (i + 1) (array.set i (some (entry row)))
        rw [List.length_set] at hrun hlen
        rw [if_pos rfl, if_pos hi]
        refine ⟨result, hrun, hlen, fun k => ?_⟩
        rw [hget, elementAfter_stored rows hi hcalloc]
      | false =>
        obtain ⟨result, hrun, hlen, hget⟩ := ih (i + 1) array
        rw [if_neg Bool.false_ne_true]
        refine ⟨result, hrun, hlen, fun k => ?_⟩
        rw [hget, elementAfter_skipped row rows hcalloc]
    · rw [if_neg hi]
      refine ⟨array, rfl, rfl, fun k => ?_⟩
      rw [elementAfter, if_neg (by omega)]

theorem listRows_some {entry : ρ → ε} {calloc : Nat → Bool} {rows : List ρ} {size : Nat}
    {array result : List (Option ε)}
    (hrun : storeRows entry calloc size 0 rows array = some result) :
    listRows entry (some rows) calloc array size = some ((rows.length : Int), result) := by
  rw [listRows]
  simp only [Option.bind_eq_bind, hrun, Option.bind_some]

/-- An element that a command may use: it is there, and not null unless the command checks it. -/
def Readable (checked : Bool) (array : List (Option ε)) (k : Nat) : Prop :=
  ∃ element, array[k]? = some element ∧ (checked = true ∨ element.isSome = true)

theorem showRows_isSome_iff (checked : Bool) (line : ε → List β) (array : List (Option ε))
    (n i : Nat) :
    (showRows checked line array n i).isSome = true ↔
      ∀ k, i ≤ k → k < i + n → Readable checked array k := by
  induction n generalizing i with
  | zero => exact ⟨fun _ k hge hlt => absurd hlt (by omega), fun _ => rfl⟩
  | succ n ih =>
    have hsplit : (∀ k, i ≤ k → k < i + (n + 1) → Readable checked array k) ↔
        Readable checked array i ∧ (showRows checked line array n (i + 1)).isSome = true := by
      rw [ih]
      constructor
      · exact fun h => ⟨h i le_rfl (by omega), fun k hge hlt => h k (by omega) (by omega)⟩
      · rintro ⟨hi, hrest⟩ k hge hlt
        rcases Nat.eq_or_lt_of_le hge with rfl | hgt
        · exact hi
        · exact hrest k hgt (by omega)
    rw [hsplit, showRows, Readable]
    cases array[i]? with
    | none => simp
    | some element =>
      cases element with
      | none => cases checked <;> simp
      | some e => cases showRows checked line array n (i + 1) <;> simp

/-- In an array of null pointers the elements of the rows are filled for which there is memory. -/
theorem readable_filled_iff (entry : ρ → ε) (calloc : Nat → Bool) (rows : List ρ) (checked : Bool)
    {size : Nat} {result : List (Option ε)}
    (hget : ∀ k, result[k]? = elementAfter entry calloc 0 rows (List.replicate size none) k)
    {k : Nat} (hk : k < rows.length) :
    Readable checked result k ↔ k < size ∧ (checked = true ∨ calloc k = true) := by
  rw [Readable, hget, elementAfter, List.length_replicate, Nat.sub_zero,
    List.getElem?_eq_getElem hk]
  by_cases hsize : k < size
  · cases hcalloc : calloc k <;> simp [hsize]
  · simp [hsize]

/-- A listing function returns at most the size of its array if and only if there are at most as
many rows. -/
theorem listRows_le_iff (entry : ρ → ε) (query : Option (List ρ)) (calloc : Nat → Bool)
    (array : List (Option ε)) :
    (∀ n filled, listRows entry query calloc array array.length = some (n, filled) → 0 ≤ n →
      n ≤ array.length) ↔ ∀ rows ∈ query, rows.length ≤ array.length := by
  cases query with
  | none =>
    refine ⟨fun _ rows hrows => absurd hrows (Option.not_mem_none rows), fun _ n filled h hn => ?_⟩
    obtain ⟨rfl, -⟩ := Prod.mk.inj (Option.some.inj h)
    omega
  | some rows =>
    obtain ⟨result, hrun, -, -⟩ := storeRows_spec entry calloc rows 0 array
    rw [listRows_some hrun]
    constructor
    · intro h rows' hrows'
      obtain rfl := Option.some.inj hrows'
      exact Int.ofNat_le.mp (h _ _ rfl (Int.natCast_nonneg _))
    · intro h n filled heq _
      obtain ⟨rfl, -⟩ := Prod.mk.inj (Option.some.inj heq)
      exact Int.ofNat_le.mpr (h rows rfl)

/-- A command stays inside its array if and only if the array has room for the rows; a command
that does not check the elements also needs the memory for all of them. -/
theorem command_isSome_iff (entry : ρ → ε) (query : Option (List ρ)) (calloc : Nat → Bool)
    (checked : Bool) (line : ε → List β) (size : Nat) :
    (command checked line
      (listRows entry query calloc (List.replicate size none) size)).isSome = true ↔
      ∀ rows ∈ query, rows.length ≤ size ∧
        (checked = true ∨ ∀ k < rows.length, calloc k = true) := by
  cases query with
  | none => exact ⟨fun _ rows hrows => absurd hrows (Option.not_mem_none rows), fun _ => rfl⟩
  | some rows =>
    obtain ⟨result, hrun, -, hget⟩ :=
      storeRows_spec entry calloc rows 0 (List.replicate size none)
    rw [List.length_replicate] at hrun
    have hcommand : (command checked line
        (listRows entry (some rows) calloc (List.replicate size none) size)).isSome = true ↔
        ∀ k < rows.length, Readable checked result k := by
      rw [command, listRows_some hrun]
      simp only [Option.bind_eq_bind, Option.bind_some]
      split
      · have hempty : rows.length = 0 := by omega
        exact ⟨fun _ k hk => absurd hk (by omega), fun _ => rfl⟩
      · rw [showRows_isSome_iff, Int.toNat_natCast, Nat.zero_add]
        exact ⟨fun h k hk => h k (Nat.zero_le k) hk, fun h k _ hk => h k hk⟩
    rw [hcommand]
    constructor
    · intro h rows' hrows'
      obtain rfl := Option.some.inj hrows'
      have hfilled (k : Nat) (hk : k < rows.length) :=
        (readable_filled_iff entry calloc rows checked hget hk).mp (h k hk)
      constructor
      · by_contra hlt
        exact absurd (hfilled size (by omega)).1 (lt_irrefl size)
      · cases checked with
        | true => exact Or.inl rfl
        | false => exact Or.inr fun k hk => (hfilled k hk).2.resolve_left Bool.false_ne_true
    · intro h k hk
      obtain ⟨hsize, hmemory⟩ := h rows rfl
      refine (readable_filled_iff entry calloc rows checked hget hk).mpr ⟨by omega, ?_⟩
      exact hmemory.imp_right fun hall => hall k hk

end Listing

/-! ## All commands -/

/-- What the commands read from the cache and from the lock files. -/
structure Surroundings where
  client : Int32 → LinkStatus
  channel : Int32 → LinkStatus
  server : Int32 → Int32 × Bool
  cache : RedisNode

/-- The functions return at most the size of an array of that size, and the commands use existing
elements only. -/
structure Respects (db : Tables) (around : Surroundings) (calloc : Nat → Bool) (size : Nat) :
    Prop where
  accounts : ∀ n array, lambGetAccounts db calloc (List.replicate size none) size =
    some (n, array) → 0 ≤ n → n ≤ size
  gateways : ∀ n array, lambGetGateways db calloc (List.replicate size none) size =
    some (n, array) → 0 ≤ n → n ≤ size
  client : (lambShowClient around.client db calloc).isSome = true
  server : (lambShowServer around.server around.cache db calloc).isSome = true
  account : (lambShowAccount db calloc).isSome = true
  gateway : (lambShowGateway db calloc).isSome = true
  channel : (lambShowChannel around.channel db calloc).isSome = true

/-- The condition: no more rows than elements, and memory for every account. -/
structure Fits (db : Tables) (calloc : Nat → Bool) (size : Nat) : Prop where
  accounts : ∀ rows ∈ db.accounts, rows.length ≤ size ∧ rows.length ≤ 128
  gateways : ∀ rows ∈ db.gateways, rows.length ≤ size ∧ rows.length ≤ 128
  memory : ∀ rows ∈ db.accounts, ∀ k < rows.length, calloc k = true

theorem respects_iff (db : Tables) (around : Surroundings) (calloc : Nat → Bool) (size : Nat) :
    Respects db around calloc size ↔ Fits db calloc size := by
  have haccounts := listRows_le_iff AccountRow.entry db.accounts calloc (List.replicate size none)
  have hgateways := listRows_le_iff GatewayRow.entry db.gateways calloc (List.replicate size none)
  rw [List.length_replicate] at haccounts hgateways
  constructor
  · intro h
    have hserver := (command_isSome_iff AccountRow.entry db.accounts calloc false _ 128).mp h.server
    have hchannel := (command_isSome_iff GatewayRow.entry db.gateways calloc true _ 128).mp h.channel
    refine ⟨fun rows hrows => ?_, fun rows hrows => ?_, fun rows hrows => ?_⟩
    · exact ⟨haccounts.mp h.accounts rows hrows, (hserver rows hrows).1⟩
    · exact ⟨hgateways.mp h.gateways rows hrows, (hchannel rows hrows).1⟩
    · exact (hserver rows hrows).2.resolve_left Bool.false_ne_true
  · intro h
    have hchecked {β : Type} (line : ListedAccount → List β) :=
      (command_isSome_iff AccountRow.entry db.accounts calloc true line 128).mpr fun rows hrows =>
        ⟨(h.accounts rows hrows).2, Or.inl rfl⟩
    have hlisted {β : Type} (line : ListedGateway → List β) :=
      (command_isSome_iff GatewayRow.entry db.gateways calloc true line 128).mpr fun rows hrows =>
        ⟨(h.gateways rows hrows).2, Or.inl rfl⟩
    constructor
    · exact haccounts.mpr fun rows hrows => (h.accounts rows hrows).1
    · exact hgateways.mpr fun rows hrows => (h.gateways rows hrows).1
    · exact hchecked _
    · exact (command_isSome_iff AccountRow.entry db.accounts calloc false _ 128).mpr
        fun rows hrows => ⟨(h.accounts rows hrows).2, Or.inr (h.memory rows hrows)⟩
    · exact hchecked _
    · exact hlisted _
    · exact hlisted _

def someAccount : AccountRow where
  id := 1
  username := ⟨ascii "first", by decide⟩
  spcode := ⟨ascii "1069", by decide⟩
  company := 1
  address := ⟨ascii "127.0.0.1", by decide⟩
  concurrent := 30
  options := 0
  password := ⟨ascii "secret", by decide⟩

/-- With 129 accounts the console reads behind its array of 128, and with a single one it follows a
null pointer if there is no memory for its record. -/
theorem more_rows_than_elements :
    let many : Tables := ⟨some (List.replicate 129 someAccount), some []⟩
    let single : Tables := ⟨some [someAccount], some []⟩
    (∃ array, lambGetAccounts many (fun _ => true) (noElements _) 128 = some (129, array)) ∧
      lambShowAccount many (fun _ => true) = none ∧
      lambShowServer (fun _ => (0, false)) (fun _ => none) single (fun _ => false) = none := by
  intro many single
  have hmany : ¬ (lambShowAccount many fun _ => true).isSome = true := by
    rw [lambShowAccount, lambGetAccounts, noElements, command_isSome_iff]
    intro h
    have hlen := (h (List.replicate 129 someAccount) rfl).1
    rw [List.length_replicate] at hlen
    omega
  obtain ⟨array, hrun, -, -⟩ := storeRows_spec AccountRow.entry (fun _ => true)
    (List.replicate 129 someAccount) 0 (noElements _)
  have hlength : (noElements ListedAccount).length = 128 := List.length_replicate
  rw [hlength] at hrun
  have hlist := listRows_some hrun
  rw [List.length_replicate] at hlist
  exact ⟨⟨array, hlist⟩, Option.not_isSome_iff_eq_none.mp hmany, rfl⟩

end LambGateway.Console.Listing
