import LambGateway.Framework.Decimal
import LambGateway.Framework.ExclusiveFile
import LambGateway.Framework.Transition

/-!
# The lock file of an instance

Each daemon creates a lock file when it starts, and is not started if the file exists. What it
does from then on is written here as the list of what concerns the lock: it releases it, it comes
to the loop in which it stays, or it returns. The processes of all daemons take turns.
-/

namespace LambGateway.Startup

open Framework

/-- Which files exist. -/
abbrev Files := Bytes → Bool

/-- `lamb_lock_t` -/
structure LambLock where
  fd : Int
  file : Option Bytes

/-- `lamb_lock_protection`. `opened` is the descriptor that `open` gives if the file does not exist,
and `none` if it fails for another reason. -/
def lambLockProtection (files : Files) (opened : Option Nat) (file : Bytes) :
    Option (LambLock × Files) :=
  if files file then none
  else
    match opened with
    | some fd => some (⟨fd, some file⟩, Function.update files file true)
    | none => none

def lambLockRelease (lock : LambLock) (files : Files) : LambLock × Files :=
  if 0 ≤ lock.fd then
    (⟨-1, lock.file⟩,
      match lock.file with
      | some file => Function.update files file false
      | none => files)
  else (lock, files)

inductive Command where
  | release
  /-- A loop without an end. -/
  | loop
  | ret (code : Int)
deriving DecidableEq

/-! ## The daemons

What each of them does after it has taken the lock, by the outcomes of its steps. -/

namespace Ismg

structure Init where
  rdb : Bool
  cacheConnect : Bool
  cmppInit : Bool

def lambEventLoop : List Command := [.loop]

def main (init : Init) : List Command :=
  if !init.rdb then [.ret (-1)]
  else if !init.cacheConnect then [.ret (-1)]
  else if !init.cmppInit then [.ret (-1)]
  else lambEventLoop ++ [.release, .ret 0]

end Ismg

/-- The rest of `main` in `mt`, `mo`, `scheduler` and `delivery`. An event loop returns early if one
of its steps fails. -/
def releaseAfter (eventLoop : List Command) : List Command := eventLoop ++ [.release, .ret 0]

namespace Mt

structure Init where
  pool : Bool
  rdb : Bool
  cacheConnect : Bool
  socket : Bool
  bind : Bool

def lambEventLoop (init : Init) : List Command :=
  if init.pool && init.rdb && init.cacheConnect && init.socket && init.bind then [.loop] else []

def main (init : Init) : List Command := releaseAfter (lambEventLoop init)

end Mt

namespace Mo

structure Init where
  pool : Bool
  rdb : Bool
  cacheConnect : Bool
  socket : Bool
  bind : Bool

def lambEventLoop (init : Init) : List Command :=
  if init.pool && init.rdb && init.cacheConnect && init.socket && init.bind then [.loop] else []

def main (init : Init) : List Command := releaseAfter (lambEventLoop init)

end Mo

namespace Scheduler

structure Init where
  gateway : Bool
  dbInit : Bool
  dbConnect : Bool
  nnServer : Bool

def lambEventLoop (init : Init) : List Command :=
  if init.gateway && init.dbInit && init.dbConnect && init.nnServer then [.loop] else []

def main (init : Init) : List Command := releaseAfter (lambEventLoop init)

end Scheduler

namespace Delivery

structure Init where
  pool : Bool
  storage : Bool
  delivery : Bool
  rdb : Bool
  cacheConnect : Bool
  dbInit : Bool
  dbConnect : Bool
  mdbInit : Bool
  mdbConnect : Bool
  getDelivery : Bool
  socket : Bool
  bind : Bool

/-- The cache is not connected to if there is no memory for it. -/
def lambEventLoop (init : Init) : List Command :=
  if init.pool && init.storage && init.delivery && (!init.rdb || init.cacheConnect) &&
      init.dbInit && init.dbConnect && init.mdbInit && init.mdbConnect && init.getDelivery &&
      init.socket && init.bind then [.loop]
  else []

def main (init : Init) : List Command := releaseAfter (lambEventLoop init)

end Delivery

namespace Sp

structure Init where
  storage : Bool
  statistical : Bool
  rdb : Bool
  cacheConnect : Bool
  db : Bool
  dbInit : Bool
  dbConnect : Bool
  gateway : Bool
  getGateway : Bool
  nodesConnect : Bool
  scheduler : Bool
  delivery : Bool
  cmppInit : Bool

def lambComponentInitialization (init : Init) : Bool :=
  init.storage && init.statistical && init.rdb && init.cacheConnect && init.db && init.dbInit &&
    init.dbConnect && init.gateway && init.getGateway && init.nodesConnect && init.scheduler &&
    init.delivery && init.cmppInit

def lambEventLoop (init : Init) : List Command :=
  if lambComponentInitialization init then [.loop] else [.release]

def main (init : Init) : List Command := lambEventLoop init ++ [.release, .ret 0]

/-- `lamb_exit_cleanup` and `exit` in `lamb_stat_loop` -/
def lambStatLoop : List Command := [.release, .ret 0]

end Sp

namespace Server

/-- `options` are those of the account. -/
structure Init where
  memory : Bool
  storage : Bool
  billing : Bool
  unsubscribe : Bool
  cacheConnect : Bool
  blacklistNodes : Bool
  unsubscribeNodes : Bool
  frequencyNodes : Bool
  dbInit : Bool
  dbConnect : Bool
  mdbInit : Bool
  mdbConnect : Bool
  accountFetch : Bool
  mt : Bool
  mo : Bool
  scheduler : Bool
  deliverd : Bool
  companyGet : Bool
  options : Int32
  templates : Bool
  getTemplate : Bool
  keywords : Bool
  keywordGetAll : Bool

def lambComponentInitialization (init : Init) : Bool :=
  init.memory && init.storage && init.billing && init.unsubscribe && init.cacheConnect &&
    init.blacklistNodes && init.unsubscribeNodes && init.frequencyNodes && init.dbInit &&
    init.dbConnect && init.mdbInit && init.mdbConnect && init.accountFetch && init.mt && init.mo &&
    init.scheduler && init.deliverd && init.companyGet && init.templates &&
    (init.options &&& 1 == 0 || init.getTemplate) && init.keywords &&
    (init.options &&& 2 == 0 || init.keywordGetAll)

def lambEventLoop (init : Init) : List Command :=
  if lambComponentInitialization init then [.loop, .release, .ret 0] else [.release]

def main (init : Init) : List Command := lambEventLoop init ++ [.ret 0]

/-- `lamb_exit_cleanup` in `lamb_stat_loop` -/
def lambStatLoop : List Command := [.release, .ret 0]

end Server

/-! ## Starts -/

inductive Daemon where
  | ismg
  | mt
  | mo
  | scheduler
  | delivery
  | sp (gid : Int32)
  | server (aid : Int32)
deriving DecidableEq

def Daemon.lockfile : Daemon → Bytes
  | ismg => ascii "/tmp/ismg.lock"
  | mt => ascii "/tmp/mt.lock"
  | mo => ascii "/tmp/mo.lock"
  | scheduler => ascii "/tmp/scheduler.lock"
  | delivery => ascii "/tmp/delivery.lock"
  | sp gid => ascii "/tmp/gtw-" ++ decimalInt gid.toInt ++ ascii ".lock"
  | server aid => ascii "/tmp/serv-" ++ decimalInt aid.toInt ++ ascii ".lock"

inductive Program where
  | ismg (init : Ismg.Init)
  | mt (init : Mt.Init)
  | mo (init : Mo.Init)
  | scheduler (init : Scheduler.Init)
  | delivery (init : Delivery.Init)
  | sp (gid : Int32) (init : Sp.Init)
  | server (aid : Int32) (init : Server.Init)

namespace Program

def daemon : Program → Daemon
  | ismg _ => .ismg
  | mt _ => .mt
  | mo _ => .mo
  | scheduler _ => .scheduler
  | delivery _ => .delivery
  | sp gid _ => .sp gid
  | server aid _ => .server aid

def main : Program → List Command
  | ismg init => Ismg.main init
  | mt init => Mt.main init
  | mo init => Mo.main init
  | scheduler init => Scheduler.main init
  | delivery init => Delivery.main init
  | sp _ init => Sp.main init
  | server _ init => Server.main init

/-- The number in the arguments of `sp` and `server` has to be positive. -/
def validId : Program → Bool
  | sp gid _ => !(gid < 1)
  | server aid _ => !(aid < 1)
  | _ => true

end Program

/-- A start of a program: whether its configuration is read, and what `open` gives. -/
structure Start where
  readConfig : Bool
  opened : Option Nat
  program : Program

/-- A process that has taken its lock, and what is left for it to do. -/
structure Process where
  daemon : Daemon
  lock : LambLock
  todo : List Command

/-- The first part of each `main`: the process, or the code that it returns. -/
def Start.main (start : Start) (files : Files) : Except Int (Process × Files) :=
  if !start.program.validId then .error (-1)
  else if !start.readConfig then .error (-1)
  else
    match lambLockProtection files start.opened start.program.daemon.lockfile with
    | none => .error (-1)
    | some (lock, files) => .ok (⟨start.program.daemon, lock, start.program.main⟩, files)

/-! ## Processes -/

structure System where
  files : Files
  procs : Nat → Option Process

/-- No process, and no lock file. -/
def System.empty : System := ⟨fun _ => false, fun _ => none⟩

inductive Action where
  /-- A program is started as the process `pid`. -/
  | launch (pid : Nat) (start : Start)
  | proceed (pid : Nat)
  /-- The signal 9 of the console, for a process that is in its loop. -/
  | signal (pid : Nat)

/-- What a process does on the signal, if its program asks for signals. -/
def onSignal : Daemon → Option (List Command)
  | .sp _ => some Sp.lambStatLoop
  | .server _ => some Server.lambStatLoop
  | _ => none

/-- The next command of a process. It goes on with what is left, or is gone. -/
def Process.proceed (p : Process) (files : Files) : Option (Option Process × Files) :=
  match p.todo with
  | .release :: todo =>
    let (lock, files) := lambLockRelease p.lock files
    some (some { p with lock := lock, todo := todo }, files)
  | .ret _ :: _ => some (none, files)
  | _ => none

def step (s : System) : Action → Option System
  | .launch pid start =>
    if (s.procs pid).isSome then none
    else
      match start.main s.files with
      | .error _ => some s
      | .ok (p, files) => some ⟨files, Function.update s.procs pid (some p)⟩
  | .proceed pid => do
    let p ← s.procs pid
    let (p, files) ← p.proceed s.files
    some ⟨files, Function.update s.procs pid p⟩
  | .signal pid => do
    let p ← s.procs pid
    if p.todo.head? = some .loop then do
      let todo ← onSignal p.daemon
      some { s with procs := Function.update s.procs pid (some { p with todo := todo }) }
    else none

/-- The file whose lock a process holds. -/
def Process.holds (p : Process) : Option Bytes :=
  if 0 ≤ p.lock.fd then p.lock.file else none

def System.owns (s : System) (pid : Nat) : Option Bytes := (s.procs pid).bind Process.holds

/-- A lock file exists only while there is a process of its daemon, and without one a start gets
past the lock. -/
structure Sound (s : System) : Prop where
  exists_only : ∀ d : Daemon, s.files d.lockfile = true →
    ∃ pid p, s.procs pid = some p ∧ p.daemon = d
  repeatable : ∀ d : Daemon, (∀ pid p, s.procs pid = some p → p.daemon ≠ d) →
    ∀ fd, (lambLockProtection s.files (some fd) d.lockfile).isSome = true

/-! ## One start -/

/-- A start gets past its lock. -/
def Start.Acquires (start : Start) (files : Files) : Prop := ∃ r, start.main files = .ok r

/-- The three steps of `ismg` between the lock and its loop succeed. -/
def Start.Clean (start : Start) : Prop :=
  match start.program with
  | .ismg init => init.rdb = true ∧ init.cacheConnect = true ∧ init.cmppInit = true
  | _ => True

/-- The rest of a process up to its return, with nothing between its commands. -/
def returns : List Command → LambLock → Files → Option (Int × Files)
  | .release :: todo, lock, files =>
    let (lock, files) := lambLockRelease lock files
    returns todo lock files
  | .ret code :: _, _, files => some (code, files)
  | _, _, _ => none

/-- If the start gets past the lock and returns, it has released the lock. -/
def Start.Releases (start : Start) (files : Files) : Prop :=
  ∀ p files', start.main files = .ok (p, files') → ∀ code files'',
    returns p.todo p.lock files' = some (code, files'') →
      files'' start.program.daemon.lockfile = false

/-- The next thing that concerns a lock that is held is not the return. -/
def Keeps : List Command → Prop
  | .release :: _ => True
  | .loop :: _ => True
  | _ => False

theorem lambLockProtection_eq_some {files files' : Files} {opened : Option Nat} {file : Bytes}
    {lock : LambLock} (h : lambLockProtection files opened file = some (lock, files')) :
    ∃ fd : Nat, files file = false ∧ lock = ⟨fd, some file⟩ ∧
      files' = Function.update files file true := by
  unfold lambLockProtection at h
  cases hfile : files file with
  | true =>
    rw [if_pos hfile] at h
    exact nomatch h
  | false =>
    rw [hfile, if_neg Bool.false_ne_true] at h
    cases opened with
    | none => exact nomatch h
    | some fd =>
      obtain ⟨rfl, rfl⟩ := Prod.mk.inj (Option.some.inj h)
      exact ⟨fd, rfl, rfl, rfl⟩

theorem Start.main_eq_ok {start : Start} {files files' : Files} {p : Process}
    (h : start.main files = .ok (p, files')) :
    ∃ fd : Nat, files start.program.daemon.lockfile = false ∧
      p = ⟨start.program.daemon, ⟨fd, some start.program.daemon.lockfile⟩, start.program.main⟩ ∧
      files' = Function.update files start.program.daemon.lockfile true := by
  rw [Start.main] at h
  split at h
  · exact nomatch h
  split at h
  · exact nomatch h
  split at h
  · exact nomatch h
  · next lock files₁ hlock =>
    obtain ⟨fd, hexists, rfl, rfl⟩ := lambLockProtection_eq_some hlock
    obtain ⟨rfl, rfl⟩ := Prod.mk.inj (Except.ok.inj h)
    exact ⟨fd, hexists, rfl, rfl⟩

theorem keeps_releaseAfter (ok : Bool) : Keeps (releaseAfter (if ok = true then [.loop] else [])) := by
  cases ok <;> trivial

theorem keeps_main {start : Start} (h : start.Clean) : Keeps start.program.main := by
  obtain ⟨readConfig, opened, program⟩ := start
  cases program with
  | ismg init =>
    obtain ⟨hrdb, hconnect, hinit⟩ := h
    simp only [Program.main, Ismg.main, hrdb, hconnect, hinit]
    trivial
  | mt init => exact keeps_releaseAfter _
  | mo init => exact keeps_releaseAfter _
  | scheduler init => exact keeps_releaseAfter _
  | delivery init => exact keeps_releaseAfter _
  | sp gid init =>
    change Keeps (Sp.lambEventLoop init ++ _)
    rw [Sp.lambEventLoop]
    split <;> trivial
  | server aid init =>
    change Keeps (Server.lambEventLoop init ++ _)
    rw [Server.lambEventLoop]
    split <;> trivial

/-- A start of `ismg` with a failed step returns at once. -/
theorem main_of_not_clean {start : Start} (h : ¬ start.Clean) :
    start.program.main = [.ret (-1)] := by
  obtain ⟨readConfig, opened, program⟩ := start
  cases program with
  | ismg init =>
    obtain ⟨rdb, cacheConnect, cmppInit⟩ := init
    cases rdb <;> cases cacheConnect <;> cases cmppInit <;>
      first | rfl | exact absurd ⟨rfl, rfl, rfl⟩ h
  | _ => exact absurd trivial h

theorem lambLockRelease_held {lock : LambLock} (h : 0 ≤ lock.fd) {file : Bytes}
    (hfile : lock.file = some file) (files : Files) :
    lambLockRelease lock files = (⟨-1, some file⟩, Function.update files file false) := by
  obtain ⟨fd, _⟩ := lock
  subst hfile
  rw [lambLockRelease, if_pos h]

/-- A second release does nothing, whoever has created the file since. -/
theorem lambLockRelease_released {lock : LambLock} (h : lock.fd < 0) (files : Files) :
    lambLockRelease lock files = (lock, files) := by
  rw [lambLockRelease, if_neg (Int.not_le.mpr h)]

theorem returns_released {todo : List Command} {lock : LambLock} (h : lock.fd < 0)
    {files files' : Files} {code : Int} (hret : returns todo lock files = some (code, files')) :
    files' = files := by
  induction todo with
  | nil => exact nomatch hret
  | cons command todo ih =>
    cases command with
    | release =>
      rw [returns, lambLockRelease_released h] at hret
      exact ih hret
    | loop => exact nomatch hret
    | ret c =>
      obtain ⟨-, rfl⟩ := Prod.mk.inj (Option.some.inj hret)
      rfl

theorem returns_keeps {todo : List Command} (h : Keeps todo) {fd : Nat} {file : Bytes}
    {files files' : Files} {code : Int}
    (hret : returns todo ⟨fd, some file⟩ files = some (code, files')) : files' file = false := by
  cases todo with
  | nil => exact h.elim
  | cons command todo =>
    cases command with
    | release =>
      rw [returns, lambLockRelease_held (Int.natCast_nonneg fd) rfl] at hret
      rw [returns_released (by decide : (-1 : Int) < 0) hret, Function.update_self]
    | loop => exact nomatch hret
    | ret c => exact h.elim

/-- Every way on which a start returns after it has taken the lock releases it, but for those of
`ismg` on which one of three steps has failed. -/
theorem releases_iff (start : Start) (files : Files) :
    start.Releases files ↔ (start.Acquires files → start.Clean) := by
  constructor
  · rintro h ⟨⟨p, files'⟩, hmain⟩
    by_contra hclean
    obtain ⟨fd, -, rfl, rfl⟩ := Start.main_eq_ok hmain
    have hleft := h _ _ hmain (-1) (Function.update files start.program.daemon.lockfile true) (by
      rw [main_of_not_clean hclean]
      rfl)
    rw [Function.update_self] at hleft
    exact absurd hleft.symm Bool.false_ne_true
  · intro h p files' hmain code files'' hret
    have hclean := h ⟨_, hmain⟩
    obtain ⟨fd, -, rfl, rfl⟩ := Start.main_eq_ok hmain
    exact returns_keeps (keeps_main hclean) hret

/-! ## Runs -/

/-- The first seven bytes of a lock file, which tell the programs apart. -/
def Daemon.front : Daemon → Bytes
  | ismg => ascii "/tmp/is"
  | mt => ascii "/tmp/mt"
  | mo => ascii "/tmp/mo"
  | scheduler => ascii "/tmp/sc"
  | delivery => ascii "/tmp/de"
  | sp _ => ascii "/tmp/gt"
  | server _ => ascii "/tmp/se"

theorem take_lockfile (d : Daemon) : d.lockfile.take 7 = d.front := by
  cases d <;> rfl

theorem lockfile_injective : Function.Injective Daemon.lockfile := by
  intro d e h
  have hfront := congrArg (List.take 7) h
  rw [take_lockfile, take_lockfile] at hfront
  cases d <;> cases e
  case sp.sp gid gid' =>
    have hnumber := append_decimalInt_injective _ (List.append_cancel_right h)
    exact congrArg Daemon.sp hnumber
  case server.server aid aid' =>
    have hnumber := append_decimalInt_injective _ (List.append_cancel_right h)
    exact congrArg Daemon.server hnumber
  all_goals
    simp only [Daemon.front] at hfront
    first | rfl | exact absurd hfront (by decide)

/-- A process knows its lock file, and does not return while it holds the lock. -/
def Process.Ready (p : Process) : Prop :=
  p.lock.file = some p.daemon.lockfile ∧ (0 ≤ p.lock.fd → Keeps p.todo)

/-- What carries a run. -/
structure Inv (s : System) : Prop where
  owned : Owned s.files s.owns
  ready : ∀ pid p, s.procs pid = some p → p.Ready

theorem inv_empty : Inv .empty where
  owned := owned_empty
  ready _ _ h := nomatch h

theorem owns_update (s : System) (files : Files) (pid : Nat) (q : Option Process) :
    System.owns ⟨files, Function.update s.procs pid q⟩ =
      Function.update s.owns pid (q.bind Process.holds) := by
  funext i
  by_cases hi : i = pid
  · subst hi
    rw [Function.update_self, System.owns]
    simp only [Function.update_self]
  · rw [Function.update_of_ne hi, System.owns]
    simp only [Function.update_of_ne hi]
    rfl

theorem owns_of_procs {s : System} {pid : Nat} {p : Process} (hp : s.procs pid = some p) :
    s.owns pid = p.holds := by
  rw [System.owns, hp, Option.bind_some]

/-- A process that owns what it has owned before. -/
theorem Inv.owned_same {s : System} (h : Inv s) {pid : Nat} {file : Option Bytes}
    (howns : s.owns pid = file) : Owned s.files (Function.update s.owns pid file) := by
  rw [← howns, Function.update_eq_self]
  exact h.owned

/-- A process comes, goes on or is gone. -/
theorem Inv.replace {s : System} (h : Inv s) {files : Files} {pid : Nat} {q : Option Process}
    (howned : Owned files (Function.update s.owns pid (q.bind Process.holds)))
    (hready : ∀ p, q = some p → p.Ready) : Inv ⟨files, Function.update s.procs pid q⟩ where
  owned := by rwa [owns_update]
  ready i p hp := by
    change Function.update s.procs pid q i = some p at hp
    by_cases hi : i = pid
    · subst hi
      rw [Function.update_self] at hp
      exact hready p hp
    · rw [Function.update_of_ne hi] at hp
      exact h.ready i p hp

/-- A start that takes the lock of `ismg` does not fail behind it. -/
def CleanLaunch (s : System) : Action → Prop
  | .launch _ start => start.Acquires s.files → start.Clean
  | _ => True

theorem launch_inv {s t : System} {pid : Nat} {start : Start} (h : Inv s)
    (hclean : start.Acquires s.files → start.Clean)
    (hstep : step s (.launch pid start) = some t) : Inv t := by
  rw [step] at hstep
  cases hpid : s.procs pid with
  | some p =>
    rw [hpid] at hstep
    exact nomatch hstep
  | none =>
    rw [hpid] at hstep
    cases hmain : start.main s.files with
    | error code =>
      rw [hmain] at hstep
      exact Option.some.inj hstep ▸ h
    | ok r =>
      obtain ⟨p, files⟩ := r
      rw [hmain] at hstep
      obtain rfl := Option.some.inj hstep
      have hkeeps := keeps_main (hclean ⟨_, hmain⟩)
      obtain ⟨fd, hfree, rfl, rfl⟩ := Start.main_eq_ok hmain
      apply h.replace
      · have hnone : s.owns pid = none := by rw [System.owns, hpid]; rfl
        have hholds : Process.holds ⟨start.program.daemon,
            ⟨fd, some start.program.daemon.lockfile⟩, start.program.main⟩ =
              some start.program.daemon.lockfile := if_pos (Int.natCast_nonneg fd)
        rw [Option.bind_some, hholds]
        exact h.owned.create hnone hfree
      · intro p hp
        obtain rfl := Option.some.inj hp
        exact ⟨rfl, fun _ => hkeeps⟩

theorem proceed_inv {s t : System} {pid : Nat} (h : Inv s)
    (hstep : step s (.proceed pid) = some t) : Inv t := by
  obtain ⟨p, hp, hstep⟩ := Option.bind_eq_some_iff.mp hstep
  obtain ⟨⟨q, files⟩, hnext, hstep⟩ := Option.bind_eq_some_iff.mp hstep
  obtain rfl := Option.some.inj hstep
  obtain ⟨hfile, hkeeps⟩ := h.ready pid p hp
  have howns := owns_of_procs hp
  rw [Process.holds, hfile] at howns
  rw [Process.proceed] at hnext
  split at hnext
  case h_1 todo htodo =>
    by_cases hfd : 0 ≤ p.lock.fd
    · rw [lambLockRelease_held hfd hfile] at hnext
      obtain ⟨rfl, rfl⟩ := Prod.mk.inj (Option.some.inj hnext)
      rw [if_pos hfd] at howns
      refine h.replace (h.owned.remove howns) ?_
      intro q hq
      obtain rfl := Option.some.inj hq
      exact ⟨rfl, fun hneg => absurd hneg (by decide : ¬ (0 : Int) ≤ -1)⟩
    · rw [lambLockRelease_released (Int.not_le.mp hfd)] at hnext
      obtain ⟨rfl, rfl⟩ := Prod.mk.inj (Option.some.inj hnext)
      rw [if_neg hfd] at howns
      refine h.replace ?_ ?_
      · rw [Option.bind_some, Process.holds, if_neg hfd]
        exact h.owned_same howns
      · intro q hq
        obtain rfl := Option.some.inj hq
        exact ⟨hfile, fun hpos => absurd hpos hfd⟩
  case h_2 code todo htodo =>
    obtain ⟨rfl, rfl⟩ := Prod.mk.inj (Option.some.inj hnext)
    have hfd : ¬ 0 ≤ p.lock.fd := by
      intro hpos
      have hret := hkeeps hpos
      rw [htodo] at hret
      exact hret
    rw [if_neg hfd] at howns
    refine h.replace ?_ fun p hp => nomatch hp
    rw [Option.bind_none]
    exact h.owned_same howns
  case h_3 => exact nomatch hnext

theorem keeps_onSignal {d : Daemon} {todo : List Command} (h : onSignal d = some todo) :
    Keeps todo := by
  cases d with
  | sp gid => exact Option.some.inj h ▸ trivial
  | server aid => exact Option.some.inj h ▸ trivial
  | _ => exact nomatch h

theorem signal_inv {s t : System} {pid : Nat} (h : Inv s)
    (hstep : step s (.signal pid) = some t) : Inv t := by
  obtain ⟨p, hp, hstep⟩ := Option.bind_eq_some_iff.mp hstep
  split at hstep
  · obtain ⟨todo, htodo, hstep⟩ := Option.bind_eq_some_iff.mp hstep
    obtain rfl := Option.some.inj hstep
    refine h.replace ?_ ?_
    · have howns : s.owns pid = p.holds := owns_of_procs hp
      exact h.owned_same howns
    · intro q hq
      obtain rfl := Option.some.inj hq
      exact ⟨(h.ready pid p hp).1, fun _ => keeps_onSignal htodo⟩
  · exact nomatch hstep

theorem Inv.sound {s : System} (h : Inv s) : Sound s := by
  have hexists (d : Daemon) (hd : s.files d.lockfile = true) :
      ∃ pid p, s.procs pid = some p ∧ p.daemon = d := by
    obtain ⟨pid, hpid⟩ := (h.owned.exists_iff d.lockfile).mp hd
    obtain ⟨p, hp, hholds⟩ := Option.bind_eq_some_iff.mp hpid
    refine ⟨pid, p, hp, ?_⟩
    rw [Process.holds, (h.ready pid p hp).1] at hholds
    split at hholds
    · exact lockfile_injective (Option.some.inj hholds)
    · exact nomatch hholds
  refine ⟨hexists, ?_⟩
  intro d hnone fd
  have hfree : s.files d.lockfile = false := by
    by_contra hd
    obtain ⟨pid, p, hp, hpd⟩ := hexists d (Bool.not_eq_false _ ▸ hd)
    exact hnone pid p hp hpd
  rw [lambLockProtection, hfree]
  rfl

/-- The lock of an instance is released on every way out, except on the ways on which `ismg`
fails before its loop; where no start of `ismg` fails so, the lock files that exist are those of
the processes. -/
theorem lock_life_cycle (start : Start) (files : Files) (actions : List Action) (t : System) :
    (start.Releases files ↔ (start.Acquires files → start.Clean)) ∧
      (Guarded step CleanLaunch .empty actions → exec step .empty actions = some t → Sound t) := by
  refine ⟨releases_iff start files, ?_⟩
  intro hguard hrun
  apply Inv.sound
  refine exec_invariant_of_guarded ?_ inv_empty hguard hrun
  intro s action u hs hclean hstep
  cases action with
  | launch pid start => exact launch_inv hs hclean hstep
  | proceed pid => exact proceed_inv hs hstep
  | signal pid => exact signal_inv hs hstep

/-- `mt` cannot bind its port, returns, and is started again. -/
theorem mt_starts_again :
    let refused : Start := ⟨true, some 3, .mt ⟨true, true, true, true, false⟩⟩
    let again : Start := ⟨true, some 3, .mt ⟨true, true, true, true, true⟩⟩
    ∃ t, exec step .empty [.launch 1 refused, .proceed 1, .proceed 1, .launch 2 again] = some t ∧
      (t.procs 2).isSome = true ∧ Sound t := by
  intro refused again
  let actions : List Action := [.launch 1 refused, .proceed 1, .proceed 1, .launch 2 again]
  refine ⟨_, rfl, rfl, (lock_life_cycle refused (fun _ => false) actions _).2 ?_ rfl⟩
  refine ⟨fun _ => trivial, fun _ _ => ⟨trivial, fun _ _ => ⟨trivial, fun _ _ => ⟨?_, ?_⟩⟩⟩⟩
  · exact fun _ => trivial
  · exact fun _ _ => trivial

/-- `ismg` is started while redis does not answer: the process returns and leaves its lock file, and
no start gets past it. -/
theorem ismg_leaves_lock :
    let refused : Start := ⟨true, some 3, .ismg ⟨true, false, true⟩⟩
    let again : Start := ⟨true, some 3, .ismg ⟨true, true, true⟩⟩
    ∃ t, exec step .empty [.launch 1 refused, .proceed 1] = some t ∧ ¬ Sound t ∧
      again.main t.files = .error (-1) := by
  intro refused again
  refine ⟨_, rfl, ?_, rfl⟩
  intro h
  obtain ⟨pid, p, hp, -⟩ := h.exists_only .ismg rfl
  change Function.update (Function.update (fun _ => none) 1 _) 1 none pid = some p at hp
  rw [Function.update_idem] at hp
  by_cases hpid : pid = 1
  · subst hpid
    exact nomatch hp
  · rw [Function.update_of_ne hpid] at hp
    exact nomatch hp

end LambGateway.Startup
