import LambGateway.Framework.CommandLine
import LambGateway.Framework.SqlInsert
import LambGateway.Framework.Transition
import Mathlib.Data.List.Nodup

/-!
# The task queue

The web, when it creates an account or a gateway, and the console put tasks into a table. The
daemon takes them out of it one by one, the newest first, and runs a command for each. The program
that is started reads from its command line what the task was about.
-/

namespace LambGateway.Startup.TaskQueue

open Framework

/-! ## Tasks -/

/-- What a task is to start. -/
structure Task where
  eid : Int32
  mod : CString 255
  config : CString 255
  argv : CString 255
  deriving DecidableEq

/-- A row of the table `taskqueue`. -/
structure TaskRow extends Task where
  id : Int32
  createTime : Nat
  deriving DecidableEq

inductive Module where
  | server
  | sp
  deriving DecidableEq

def Module.name : Module → Bytes
  | server => ascii "server"
  | sp => ascii "sp"

def Module.config : Module → Bytes
  | server => ascii "server.conf"
  | sp => ascii "sp.conf"

/-- The task for an account or a gateway. -/
def Module.task (module : Module) (eid : Int32) : Task where
  eid := eid
  mod := strncpy module.name 255
  config := strncpy module.config 255
  argv := strncpy (ascii "-d") 255

/-- `taskNotice` of the web, for an account or a gateway that has just been created. -/
def taskNotice (module : Module) (id : Int32) (exist : Bool) : Option Task :=
  if 0 < id ∧ exist then some (module.task id) else none

/-! ## The console -/

inductive Console where
  | exit
  | help
  | show
  | start (module : Module)
  | kill
  | changePassword
  deriving DecidableEq

/-- The commands in the order in which a line is compared with them. -/
def commands : List (Bytes × Console) :=
  [(ascii "exit", .exit), (ascii "help", .help), (ascii "show version", .show),
    (ascii "show mt", .show), (ascii "show mo", .show), (ascii "show core", .show),
    (ascii "show client", .show), (ascii "show server", .show), (ascii "show account", .show),
    (ascii "show gateway", .show), (ascii "show routing", .show),
    (ascii "show delivery", .show), (ascii "show channel", .show), (ascii "show log", .show),
    (ascii "start server", .start .server), (ascii "start channel", .start .sp),
    (ascii "kill client", .kill), (ascii "kill server", .kill), (ascii "kill channel", .kill),
    (ascii "change password", .changePassword)]

/-- `lamb_opt_parsing`: the words behind the command. -/
def lambOptParsing (cmd front : Bytes) : Option (List Bytes) :=
  if cmd.length ≤ front.length then none
  else some ((words (cmd.drop front.length)).take 15)

/-- The statement of `lamb_add_taskqueue`. -/
def addTaskqueue (eid : Int32) (mod config argv : Bytes) : Bytes :=
  ascii "INSERT INTO taskqueue(eid, mod, config, argv, create_time) VALUES(" ++
    decimalInt eid.toInt ++ ascii ", '" ++ mod ++ ascii "', '" ++ config ++ ascii "', '" ++ argv ++
    ascii "', now())"

/-- `lamb_add_taskqueue`: a statement that does not fit its buffer is none. -/
def lambAddTaskqueue (module : Module) (eid : Int32) : Option Task :=
  if (addTaskqueue eid module.name module.config (ascii "-d")).length < 128 then
    some (module.task eid)
  else none

/-- `lamb_start_server` and `lamb_start_channel` -/
def lambStart (module : Module) (front line : Bytes) : Option Task :=
  match lambOptParsing line front with
  | some (val :: _) => lambAddTaskqueue module (atoi val)
  | some [] | none => none

/-- The task that a line of the console asks for. -/
def dispatch (line : Bytes) : Option Task :=
  match commands.find? fun c => c.1.isPrefixOf line with
  | some (front, .start module) => lambStart module front line
  | _ => none

/-! ## The daemon and what it starts -/

/-- The directories of the daemon's configuration. -/
structure Setup where
  module : CString 254
  config : CString 254

/-- `lamb_task_t` -/
structure LambTask where
  id : Int64
  eid : Int32
  mod : CString 254
  config : CString 254
  argv : CString 254
  deriving DecidableEq

/-- `lamb_fetch_taskqueue`, from the row that the query gives. -/
def lambFetchTaskqueue (row : TaskRow) : LambTask where
  id := atol (decimalInt row.id.toInt)
  eid := atoi (decimalInt row.eid.toInt)
  mod := strncpy row.mod.text 254
  config := strncpy row.config.text 254
  argv := strncpy row.argv.text 254

def programPath (setup : Setup) (mod : Bytes) : Bytes :=
  snprintf 128 (setup.module.text ++ 47 :: mod)

def configPath (setup : Setup) (config : Bytes) : Bytes :=
  snprintf 128 (setup.config.text ++ 47 :: config)

/-- The command of `lamb_start_program`. -/
def lambStartProgram (setup : Setup) (task : LambTask) : Bytes :=
  let front := programPath setup task.mod.text ++ ascii " -a " ++ decimalInt task.eid.toInt ++
    ascii " -c " ++ configPath setup task.config.text
  if 0 < task.argv.text.length then snprintf 512 (front ++ 32 :: task.argv.text)
  else snprintf 512 front

/-- `a:c:d` -/
def optstring : OptString := fun opt =>
  if opt = 97 ∨ opt = 99 then some true else if opt = 100 then some false else none

/-- What `main` of the server and of sp reads: the number of the account or of the gateway, the
name of the configuration, and whether the program goes to the background. -/
structure Arguments where
  id : Int32
  file : Bytes
  background : Bool
  deriving DecidableEq

def Arguments.read (arguments : Arguments) : UInt8 × Option Bytes → Arguments
  | (97, some optarg) => { arguments with id := atoi optarg }
  | (99, some optarg) => { arguments with file := optarg }
  | (100, _) => { arguments with background := true }
  | _ => arguments

def Module.main (module : Module) (argv : List Bytes) : Arguments :=
  (getopt optstring none argv).foldl Arguments.read ⟨0, module.config, false⟩

/-- How far the daemon has come with a task. -/
inductive Daemon where
  | idle
  | fetched (task : LambTask)
  | started (task : LambTask)

/-- The table, every row that was put into it, the daemon, the tasks that it has started and the
words of the commands it has run, and the tasks that it could not delete. -/
structure State where
  clock : Nat
  table : List TaskRow
  inserted : List TaskRow
  daemon : Daemon
  starts : List LambTask
  commands : List (List Bytes)
  kept : List LambTask

def State.init : State := ⟨0, [], [], .idle, [], [], []⟩

inductive Action where
  | tick
  /-- The web creates an account or a gateway; `id` is the number of the new row. -/
  | notice (module : Module) (eid : Int32) (exist : Bool) (id : Int32)
  | console (line : Bytes) (id : Int32)
  /-- The query finds the row `i` of those with the latest time. -/
  | fetch (i : Nat)
  | start
  | delete (executed : Bool)

/-- `INSERT INTO taskqueue`; the table gives no number twice. -/
def State.insert (s : State) (id : Int32) : Option Task → Option State
  | none => some s
  | some task =>
    if id ∈ s.inserted.map TaskRow.id then none
    else
      let row : TaskRow := { task with id, createTime := s.clock }
      some { s with table := s.table ++ [row], inserted := s.inserted ++ [row] }

def step (setup : Setup) (s : State) : Action → Option State
  | .tick => some { s with clock := s.clock + 1 }
  | .notice module eid exist id => s.insert id (taskNotice module eid exist)
  | .console line id => s.insert id (dispatch line)
  | .fetch i =>
    match s.daemon, s.table[i]? with
    | .idle, some row =>
      if ∀ r ∈ s.table, r.createTime ≤ row.createTime then
        some { s with daemon := .fetched (lambFetchTaskqueue row) }
      else none
    | _, _ => none
  | .start =>
    match s.daemon with
    | .fetched task => some
      { s with
        daemon := .started task
        starts := s.starts ++ [task]
        commands := s.commands ++ (shell (lambStartProgram setup task)).toList }
    | _ => none
  | .delete executed =>
    match s.daemon with
    | .started task =>
      if executed then
        some { s with
          daemon := .idle, table := s.table.filter fun r => r.id.toInt ≠ task.id.toInt }
      else some { s with daemon := .idle, kept := s.kept ++ [task] }
    | _ => none

/-! ## From a task to the arguments of the program -/

/-- A word that the shell leaves as it is. -/
structure PlainWord (word : Bytes) : Prop extends IsWord word where
  plain : word.all shellPlain = true

theorem plainWord_decimalInt (i : Int) : PlainWord (decimalInt i) where
  ne_nil := List.ne_nil_of_length_pos (decimalInt_length_pos i)
  no_blank h := by
    have hdigits (n : Nat) : 32 ∉ decimal n := fun hmem => absurd (decimal_isDigit hmem) (by decide)
    cases i with
    | ofNat n => exact hdigits n h
    | negSucc n =>
      rcases List.mem_cons.mp h with h | h
      · exact absurd h (by decide)
      · exact hdigits _ h
  plain := by
    have hdigits (n : Nat) : (decimal n).all shellPlain = true := by
      rw [List.all_eq_true]
      intro b hb
      have hdigit := decimal_isDigit hb
      rw [isDigit] at hdigit
      simp only [shellPlain, hdigit, Bool.true_or]
    cases i with
    | ofNat n => exact hdigits n
    | negSucc n =>
      rw [decimalInt, List.all_cons, hdigits]
      rfl

/-- The names of the directories mean nothing to the shell. -/
structure Setup.Plain (setup : Setup) : Prop where
  module : setup.module.text.all shellPlain = true
  config : setup.config.text.all shellPlain = true
  module_no_blank : 32 ∉ setup.module.text
  config_no_blank : 32 ∉ setup.config.text

theorem plainWord_path {directory name : Bytes} (hplain : directory.all shellPlain = true)
    (hblank : 32 ∉ directory) (hname : name.all shellPlain = true) (hname' : 32 ∉ name) :
    PlainWord (snprintf 128 (directory ++ 47 :: name)) where
  ne_nil h := by
    have hlen := congrArg List.length h
    simp [snprintf] at hlen
  no_blank h := by
    rcases List.mem_append.mp (List.mem_of_mem_take h) with h | h
    · exact hblank h
    · rcases List.mem_cons.mp h with h | h
      · exact absurd h (by decide)
      · exact hname' h
  plain := by
    rw [List.all_eq_true]
    intro b hb
    rcases List.mem_append.mp (List.mem_of_mem_take hb) with hb | hb
    · exact List.all_eq_true.mp hplain b hb
    · rcases List.mem_cons.mp hb with rfl | hb
      · rfl
      · exact List.all_eq_true.mp hname b hb

section Launch

variable {setup : Setup} (hplain : setup.Plain)
include hplain

theorem plainWord_programPath (module : Module) : PlainWord (programPath setup module.name) := by
  apply plainWord_path hplain.module hplain.module_no_blank
  · cases module <;> decide
  · cases module <;> decide

theorem plainWord_configPath (module : Module) : PlainWord (configPath setup module.config) := by
  apply plainWord_path hplain.config hplain.config_no_blank
  · cases module <;> decide
  · cases module <;> decide

/-- The words that the command of a task is split into. -/
theorem shell_lambStartProgram (module : Module) {task : LambTask}
    (hmod : task.mod.text = module.name) (hconfig : task.config.text = module.config)
    (hargv : task.argv.text = ascii "-d") :
    shell (lambStartProgram setup task) =
      some [programPath setup module.name, ascii "-a", decimalInt task.eid.toInt, ascii "-c",
        configPath setup module.config, ascii "-d"] := by
  have hprogram := plainWord_programPath hplain module
  have hfile := plainWord_configPath hplain module
  have heid := plainWord_decimalInt task.eid.toInt
  have ha : IsWord (ascii "-a") := ⟨by decide, by decide⟩
  have hc : IsWord (ascii "-c") := ⟨by decide, by decide⟩
  have hd : IsWord (ascii "-d") := ⟨by decide, by decide⟩
  have hlen : (programPath setup module.name).length ≤ 127 := List.length_take_le _ _
  have hlen' : (configPath setup module.config).length ≤ 127 := List.length_take_le _ _
  have heid' := decimalInt_int32_length_le task.eid
  have hcommand : lambStartProgram setup task =
      programPath setup module.name ++ 32 :: (ascii "-a" ++ 32 :: (decimalInt task.eid.toInt ++
        32 :: (ascii "-c" ++ 32 :: (configPath setup module.config ++ 32 :: ascii "-d")))) := by
    rw [lambStartProgram, hmod, hconfig, hargv, if_pos (by decide), snprintf_of_length_lt]
    · simp [ascii, List.append_assoc]
    · simp only [List.length_append, List.length_cons]
      rw [show (ascii " -a ").length = 4 from rfl, show (ascii " -c ").length = 4 from rfl,
        show (ascii "-d").length = 2 from rfl]
      omega
  have hall : (lambStartProgram setup task).all shellPlain = true := by
    rw [hcommand]
    simp only [List.all_append, List.all_cons, hprogram.plain, hfile.plain, heid.plain]
    decide
  rw [shell, if_pos hall, hcommand]
  simp only [words_append_cons, words_of_isWord hprogram.toIsWord, words_of_isWord ha,
    words_of_isWord heid.toIsWord, words_of_isWord hc, words_of_isWord hfile.toIsWord,
    words_of_isWord hd, List.singleton_append]

end Launch

/-- What `main` reads from the command of a task. -/
theorem main_arguments (module : Module) (eid : Int32) (file : Bytes) :
    module.main [ascii "-a", decimalInt eid.toInt, ascii "-c", file, ascii "-d"] =
      ⟨eid, file, true⟩ := by
  have ha := @getopt_argument optstring 97 rfl (by decide)
  have hc := @getopt_argument optstring 99 rfl (by decide)
  have hd := @getopt_flag optstring 100 rfl (by decide)
  rw [Module.main, show ascii "-a" = [45, 97] from rfl, show ascii "-c" = [45, 99] from rfl,
    show ascii "-d" = [45, 100] from rfl, ha, hc, hd]
  simp only [getopt, List.foldl_cons, List.foldl_nil, Arguments.read, atoi_decimalInt]

/-! ## Requests -/

/-- The task that an action asks for. -/
def Action.request : Action → Option Task
  | .notice module eid exist _ => taskNotice module eid exist
  | .console line _ => dispatch line
  | .tick | .fetch _ | .start | .delete _ => none

def Module.command : Module → Bytes
  | server => ascii "start server"
  | sp => ascii "start channel"

theorem addTaskqueue_length_lt (module : Module) (eid : Int32) :
    (addTaskqueue eid module.name module.config (ascii "-d")).length < 128 := by
  have heid := decimalInt_int32_length_le eid
  have hname : module.name.length ≤ 6 := by cases module <;> decide
  have hconfig : module.config.length ≤ 11 := by cases module <;> decide
  have hargv : (ascii "-d").length = 2 := rfl
  have hhead : (ascii "INSERT INTO taskqueue(eid, mod, config, argv, create_time) VALUES(").length =
      66 := rfl
  have hopen : (ascii ", '").length = 3 := rfl
  have hbetween : (ascii "', '").length = 4 := rfl
  have hend : (ascii "', now())").length = 9 := rfl
  simp only [addTaskqueue, List.length_append, hargv, hhead, hopen, hbetween, hend]
  omega

theorem lambAddTaskqueue_eq (module : Module) (eid : Int32) :
    lambAddTaskqueue module eid = some (module.task eid) :=
  if_pos (addTaskqueue_length_lt module eid)

/-- A command of the console with a number is a task for this number. -/
theorem dispatch_start (module : Module) (eid : Int32) :
    dispatch (module.command ++ 32 :: decimalInt eid.toInt) = some (module.task eid) := by
  have hword := (plainWord_decimalInt eid.toInt).toIsWord
  have hparse : lambOptParsing (module.command ++ 32 :: decimalInt eid.toInt) module.command =
      some [decimalInt eid.toInt] := by
    have hrest : words (32 :: decimalInt eid.toInt) = [decimalInt eid.toInt] := by
      have hsplit := words_append_cons [] (decimalInt eid.toInt)
      rw [words_of_isWord hword] at hsplit
      exact hsplit
    rw [lambOptParsing, if_neg (by simp), List.drop_left, hrest]
    rfl
  have hfind : commands.find? (fun c => c.1.isPrefixOf (module.command ++ 32 ::
      decimalInt eid.toInt)) = some (module.command, .start module) := by
    cases module <;> rfl
  rw [dispatch, hfind]
  change lambStart module module.command _ = _
  rw [lambStart, hparse]
  change lambAddTaskqueue module (atoi _) = _
  rw [atoi_decimalInt, lambAddTaskqueue_eq]

theorem dispatch_task {line : Bytes} {task : Task} (h : dispatch line = some task) :
    ∃ module eid, task = Module.task module eid := by
  unfold dispatch at h
  split at h
  · next front module _ =>
    unfold lambStart at h
    split at h
    · next val _ _ =>
      rw [lambAddTaskqueue_eq] at h
      exact ⟨module, atoi val, (Option.some.inj h).symm⟩
    · cases h
    · cases h
  · cases h

theorem request_task {a : Action} {task : Task} (h : a.request = some task) :
    ∃ module eid, task = Module.task module eid := by
  cases a with
  | notice module eid exist id =>
    simp only [Action.request, taskNotice] at h
    split at h
    · exact ⟨module, eid, (Option.some.inj h).symm⟩
    · cases h
  | console line id => exact dispatch_task h
  | tick | fetch | start | delete => cases h

/-! ## The table and the daemon -/

theorem fetch_inj {r r' : TaskRow} (h : lambFetchTaskqueue r = lambFetchTaskqueue r') :
    r.id = r'.id := by
  have hid : atol (decimalInt r.id.toInt) = atol (decimalInt r'.id.toInt) :=
    congrArg LambTask.id h
  rw [atol_decimalInt_int32, atol_decimalInt_int32] at hid
  have hint := congrArg Int64.toInt hid
  rw [Int32.toInt_toInt64, Int32.toInt_toInt64] at hint
  exact Int32.toInt_inj.mp hint

theorem fetch_id (r : TaskRow) : (lambFetchTaskqueue r).id.toInt = r.id.toInt := by
  change (atol (decimalInt r.id.toInt)).toInt = _
  rw [atol_decimalInt_int32, Int32.toInt_toInt64]

/-- Whether the daemon has started the task and not yet tried to delete it. -/
def Daemon.count (daemon : Daemon) (task : LambTask) : Nat :=
  match daemon with
  | .started task' => if task' = task then 1 else 0
  | .idle | .fetched _ => 0

/-- The starts of a row that no failed deletion accounts for. -/
def State.settled (s : State) (r : TaskRow) : Nat :=
  if r ∈ s.table then s.daemon.count (lambFetchTaskqueue r) else 1

structure Inv (setup : Setup) (s : State) : Prop where
  ids : (s.inserted.map TaskRow.id).Nodup
  table : s.table.Sublist s.inserted
  tasks : ∀ r ∈ s.inserted, ∃ module : Module, r.toTask = module.task r.eid
  fetched : ∀ task, s.daemon = .fetched task ∨ s.daemon = .started task →
    ∃ r ∈ s.table, task = lambFetchTaskqueue r
  starts : ∀ task, task ∈ s.starts ∨ task ∈ s.kept → ∃ r ∈ s.inserted, task = lambFetchTaskqueue r
  counted : ∀ r ∈ s.inserted, s.starts.count (lambFetchTaskqueue r) =
    s.kept.count (lambFetchTaskqueue r) + s.settled r
  commands : s.starts.map (fun task => shell (lambStartProgram setup task)) =
    s.commands.map some

theorem inv_init (setup : Setup) : Inv setup .init where
  ids := List.nodup_nil
  table := List.Sublist.refl _
  tasks _ h := nomatch h
  fetched _ h := by rcases h with h | h <;> cases h
  starts _ h := by rcases h with h | h <;> cases h
  counted _ h := nomatch h
  commands := rfl

section Inv

variable {setup : Setup} {s : State}

theorem Inv.row_eq (hs : Inv setup s) {r r' : TaskRow} (hr : r ∈ s.inserted)
    (hr' : r' ∈ s.inserted) (h : lambFetchTaskqueue r = lambFetchTaskqueue r') : r = r' :=
  List.inj_on_of_nodup_map hs.ids hr hr' (fetch_inj h)

theorem inv_insert (hs : Inv setup s) {id : Int32} {task : Option Task} {t : State}
    (htask : ∀ task', task = some task' → ∃ module eid, task' = Module.task module eid)
    (h : s.insert id task = some t) : Inv setup t := by
  cases task with
  | none =>
    cases h
    exact hs
  | some task =>
    simp only [State.insert] at h
    split at h
    · cases h
    next hnew =>
    cases h
    have hother : ∀ r ∈ s.inserted, r.id ≠ id := fun r hr he => hnew (List.mem_map.mpr ⟨r, hr, he⟩)
    have hgrow : ∀ r ∈ s.inserted, r ∈ s.inserted ++ [{ task with id, createTime := s.clock }] :=
      fun r hr => List.mem_append_left _ hr
    constructor
    · rw [List.map_append]
      refine hs.ids.append (List.nodup_singleton _) fun i hi hi' => hnew ?_
      have he : i = id := List.mem_singleton.mp hi'
      rwa [he] at hi
    · exact hs.table.append (List.Sublist.refl _)
    · intro r hr
      rcases List.mem_append.mp hr with hr | hr
      · exact hs.tasks r hr
      · obtain ⟨module, eid, rfl⟩ := htask task rfl
        rw [List.mem_singleton.mp hr]
        exact ⟨module, rfl⟩
    · intro task' h'
      obtain ⟨r, hr, he⟩ := hs.fetched task' h'
      exact ⟨r, List.mem_append_left _ hr, he⟩
    · intro task' h'
      obtain ⟨r, hr, he⟩ := hs.starts task' h'
      exact ⟨r, hgrow r hr, he⟩
    · intro r hr
      rcases List.mem_append.mp hr with hr | hr
      · have hmem : r ∈ s.table ++ [{ task with id, createTime := s.clock }] ↔ r ∈ s.table := by
          rw [List.mem_append, List.mem_singleton, or_iff_left]
          intro he
          exact hother r hr (by rw [he])
        rw [hs.counted r hr]
        simp only [State.settled, hmem]
      · rw [List.mem_singleton.mp hr]
        have hnone : ∀ task', (∃ r ∈ s.inserted, task' = lambFetchTaskqueue r) →
            task' ≠ lambFetchTaskqueue { task with id, createTime := s.clock } := by
          rintro _ ⟨r', hr', rfl⟩ he
          exact hother r' hr' (fetch_inj he)
        have hstarts : lambFetchTaskqueue { task with id, createTime := s.clock } ∉ s.starts :=
          fun hmem => hnone _ (hs.starts _ (.inl hmem)) rfl
        have hkept : lambFetchTaskqueue { task with id, createTime := s.clock } ∉ s.kept :=
          fun hmem => hnone _ (hs.starts _ (.inr hmem)) rfl
        have hdaemon : s.daemon.count
            (lambFetchTaskqueue { task with id, createTime := s.clock }) = 0 := by
          cases hd : s.daemon with
          | idle | fetched => rfl
          | started task' =>
            obtain ⟨r', hr', he⟩ := hs.fetched task' (.inr hd)
            exact if_neg (hnone task' ⟨r', hs.table.subset hr', he⟩)
        rw [List.count_eq_zero.mpr hstarts, List.count_eq_zero.mpr hkept, State.settled,
          if_pos (List.mem_append_right _ (List.mem_singleton_self _)), hdaemon]
    · exact hs.commands

/-- The words of the command for a row. -/
def commandWords (setup : Setup) (module : Module) (eid : Int32) : List Bytes :=
  [programPath setup module.name, ascii "-a", decimalInt eid.toInt, ascii "-c",
    configPath setup module.config, ascii "-d"]

theorem shell_fetch (hplain : setup.Plain) {r : TaskRow} {module : Module}
    (htask : r.toTask = module.task r.eid) :
    shell (lambStartProgram setup (lambFetchTaskqueue r)) =
      some (commandWords setup module r.eid) := by
  have heid : (lambFetchTaskqueue r).eid = r.eid := atoi_decimalInt r.eid
  have hmod : (lambFetchTaskqueue r).mod.text = module.name := by
    change (strncpy r.toTask.mod.text 254).text = _
    rw [htask]
    cases module <;> rfl
  have hconfig : (lambFetchTaskqueue r).config.text = module.config := by
    change (strncpy r.toTask.config.text 254).text = _
    rw [htask]
    cases module <;> rfl
  have hargv : (lambFetchTaskqueue r).argv.text = ascii "-d" := by
    change (strncpy r.toTask.argv.text 254).text = _
    rw [htask]
    rfl
  rw [shell_lambStartProgram hplain module hmod hconfig hargv, heid]
  rfl

theorem inv_fetch (hs : Inv setup s) (hidle : s.daemon = .idle) {r : TaskRow} (hr : r ∈ s.table) :
    Inv setup { s with daemon := .fetched (lambFetchTaskqueue r) } := by
  refine ⟨hs.ids, hs.table, hs.tasks, ?_, hs.starts, fun r' hr' => ?_, hs.commands⟩
  · rintro task (h | h) <;> cases h
    exact ⟨r, hr, rfl⟩
  · rw [hs.counted r' hr']
    simp only [State.settled, hidle, Daemon.count]

theorem inv_start (hplain : setup.Plain) (hs : Inv setup s) {task : LambTask}
    (hfetched : s.daemon = .fetched task) :
    Inv setup { s with
      daemon := .started task
      starts := s.starts ++ [task]
      commands := s.commands ++ (shell (lambStartProgram setup task)).toList } := by
  obtain ⟨r, hr, rfl⟩ := hs.fetched task (.inl hfetched)
  have hins := hs.table.subset hr
  refine ⟨hs.ids, hs.table, hs.tasks, ?_, ?_, fun r' hr' => ?_, ?_⟩
  · rintro task (h | h) <;> cases h
    exact ⟨r, hr, rfl⟩
  · rintro task (h | h)
    · rcases List.mem_append.mp h with h | h
      · exact hs.starts task (.inl h)
      · exact ⟨r, hins, List.mem_singleton.mp h⟩
    · exact hs.starts task (.inr h)
  · have hcount := hs.counted r' hr'
    simp only [State.settled, hfetched, Daemon.count] at hcount ⊢
    rw [List.count_append, List.count_singleton, hcount]
    by_cases he : r = r'
    · subst he
      simp [hr]
    · have hne : lambFetchTaskqueue r ≠ lambFetchTaskqueue r' :=
        fun h => he (hs.row_eq hins hr' h)
      simp [hne]
  · obtain ⟨module, htask⟩ := hs.tasks r hins
    simp only [List.map_append, List.map_cons, List.map_nil, hs.commands,
      shell_fetch hplain htask, Option.toList_some]

theorem inv_delete (hs : Inv setup s) {task : LambTask} (hstarted : s.daemon = .started task) :
    Inv setup { s with
      daemon := .idle, table := s.table.filter fun r => r.id.toInt ≠ task.id.toInt } := by
  obtain ⟨r, hr, rfl⟩ := hs.fetched task (.inr hstarted)
  have hins := hs.table.subset hr
  refine ⟨hs.ids, List.filter_sublist.trans hs.table, hs.tasks, ?_, hs.starts, fun r' hr' => ?_,
    hs.commands⟩
  · rintro task (h | h) <;> cases h
  · rw [hs.counted r' hr']
    congr 1
    simp only [State.settled, hstarted, Daemon.count, List.mem_filter, decide_eq_true_eq, fetch_id]
    by_cases he : r = r'
    · subst he
      simp [hr]
    · have hne : lambFetchTaskqueue r ≠ lambFetchTaskqueue r' :=
        fun h => he (hs.row_eq hins hr' h)
      have hid : r'.id.toInt ≠ r.id.toInt := by
        intro h
        exact he (List.inj_on_of_nodup_map hs.ids hins hr' (Int32.toInt_inj.mp h).symm)
      simp [hne, hid]

theorem inv_keep (hs : Inv setup s) {task : LambTask} (hstarted : s.daemon = .started task) :
    Inv setup { s with daemon := .idle, kept := s.kept ++ [task] } := by
  obtain ⟨r, hr, rfl⟩ := hs.fetched task (.inr hstarted)
  have hins := hs.table.subset hr
  refine ⟨hs.ids, hs.table, hs.tasks, ?_, ?_, fun r' hr' => ?_, hs.commands⟩
  · rintro task (h | h) <;> cases h
  · rintro task (h | h)
    · exact hs.starts task (.inl h)
    · rcases List.mem_append.mp h with h | h
      · exact hs.starts task (.inr h)
      · exact ⟨r, hins, List.mem_singleton.mp h⟩
  · have hcount := hs.counted r' hr'
    simp only [State.settled, hstarted, Daemon.count] at hcount ⊢
    rw [List.count_append, List.count_singleton, hcount]
    by_cases he : r = r'
    · subst he
      simp [hr]
    · have hne : lambFetchTaskqueue r ≠ lambFetchTaskqueue r' :=
        fun h => he (hs.row_eq hins hr' h)
      simp [hne]

end Inv

theorem inv_step {setup : Setup} (hplain : setup.Plain) {s t : State} {a : Action}
    (hs : Inv setup s) (h : step setup s a = some t) : Inv setup t := by
  cases a with
  | tick =>
    cases h
    exact ⟨hs.ids, hs.table, hs.tasks, hs.fetched, hs.starts, hs.counted, hs.commands⟩
  | notice module eid exist id =>
    exact inv_insert hs (fun _ => @request_task (.notice module eid exist id) _) h
  | console line id => exact inv_insert hs (fun _ => @request_task (.console line id) _) h
  | fetch i =>
    simp only [step] at h
    split at h
    · next row hidle hrow =>
      split at h <;> cases h
      exact inv_fetch hs hidle (List.mem_of_getElem? hrow)
    · cases h
  | start =>
    simp only [step] at h
    split at h
    · next task hfetched =>
      cases h
      exact inv_start hplain hs hfetched
    · cases h
  | delete executed =>
    simp only [step] at h
    split at h
    · next task hstarted =>
      split at h <;> cases h
      · exact inv_delete hs hstarted
      · exact inv_keep hs hstarted
    · cases h

/-! ## Runs -/

/-- A step puts the task into the table that it asks for, and no other one. -/
theorem inserted_step {setup : Setup} {s t : State} {a : Action} (h : step setup s a = some t)
    (task : Task) :
    task ∈ t.inserted.map TaskRow.toTask ↔
      task ∈ s.inserted.map TaskRow.toTask ∨ a.request = some task := by
  have hinsert {id : Int32} {task' : Option Task} (h : s.insert id task' = some t) :
      task ∈ t.inserted.map TaskRow.toTask ↔
        task ∈ s.inserted.map TaskRow.toTask ∨ task' = some task := by
    cases task' with
    | none =>
      cases h
      simp
    | some task' =>
      simp only [State.insert] at h
      split at h <;> cases h
      rw [List.map_append, List.mem_append, List.map_cons, List.map_nil, List.mem_singleton,
        Option.some_inj]
      exact or_congr_right eq_comm
  have hsame (hrequest : a.request = none) (hinserted : t.inserted = s.inserted) :
      task ∈ t.inserted.map TaskRow.toTask ↔
        task ∈ s.inserted.map TaskRow.toTask ∨ a.request = some task := by
    rw [hrequest, hinserted]
    simp
  cases a with
  | tick =>
    cases h
    exact hsame rfl rfl
  | notice module eid exist id => exact hinsert h
  | console line id => exact hinsert h
  | fetch i =>
    simp only [step] at h
    (repeat' split at h) <;> cases h
    exact hsame rfl rfl
  | start =>
    simp only [step] at h
    split at h <;> cases h
    exact hsame rfl rfl
  | delete executed =>
    simp only [step] at h
    (repeat' split at h) <;> cases h <;> exact hsame rfl rfl

/-- The rows that were put into the table are those that were asked for. -/
theorem inserted_iff {setup : Setup} {s t : State} {as : List Action}
    (hexec : exec (step setup) s as = some t) (task : Task) :
    task ∈ t.inserted.map TaskRow.toTask ↔
      task ∈ s.inserted.map TaskRow.toTask ∨ ∃ a ∈ as, a.request = some task := by
  induction as generalizing s with
  | nil =>
    cases hexec
    simp
  | cons a as ih =>
    obtain ⟨u, hstep, hrest⟩ := exec_cons_eq_some.mp hexec
    rw [ih hrest, inserted_step hstep, or_assoc]
    simp only [List.mem_cons, exists_eq_or_imp]

/-- The directories of `daemon.conf`. -/
def plainSetup : Setup where
  module := strncpy (ascii "/usr/local/lamb/bin") 254
  config := strncpy (ascii "/etc/lamb") 254

/-- An account is created while the console asks for a channel; the first deletion fails. -/
def twoTasks : List Action :=
  [.notice .server 7 true 1, .tick, .console (ascii "start channel 3") 2, .fetch 1, .start,
    .delete false, .fetch 1, .start, .delete true, .fetch 0, .start, .delete true]

end LambGateway.Startup.TaskQueue
