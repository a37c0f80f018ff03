import LambGateway.Framework.CText

/-!
# Command lines

A line is split into words at its blanks, and the words behind the name of a program are read as
options. An option is a letter behind a hyphen, and its argument is the rest of the word or, if
there is none, the next word.
-/

namespace Framework

/-- The words of a line, as `strtok` gives them with a blank as the delimiter. -/
def words (line : Bytes) : List Bytes := (line.splitOn 32).filter fun word => !word.isEmpty

structure IsWord (word : Bytes) : Prop where
  ne_nil : word ≠ []
  no_blank : 32 ∉ word

theorem words_append_cons (front behind : Bytes) :
    words (front ++ 32 :: behind) = words front ++ words behind := by
  rw [words, List.splitOn_append_cons_self, List.filter_append]
  rfl

theorem words_of_isWord {word : Bytes} (h : IsWord word) : words word = [word] := by
  rw [words, List.splitOn_eq_singleton h.no_blank]
  simp [h.ne_nil]

/-- A byte that stands for itself in a command of the shell: a letter, a digit, a sign of a path,
or the blank. -/
def shellPlain (b : UInt8) : Bool :=
  (48 ≤ b && b ≤ 57) || (65 ≤ b && b ≤ 90) || (97 ≤ b && b ≤ 122) ||
    b == 45 || b == 46 || b == 47 || b == 95 || b == 32

/-- The program and the arguments that `system` runs a command with, as far as the shell has
nothing else to do than to split it. -/
def shell (command : Bytes) : Option (List Bytes) :=
  if command.all shellPlain then some (words command) else none

/-! ## Options -/

/-- Whether an option is known, and takes an argument. -/
abbrev OptString := UInt8 → Option Bool

/-- The options in one word behind its hyphen, and the one that is left to take the next word. An
unknown one is reported as a question mark. -/
def wordOptions (optstring : OptString) :
    Bytes → List (UInt8 × Option Bytes) × Option UInt8
  | [] => ([], none)
  | opt :: text =>
    match optstring opt with
    | none => ((63, none) :: (wordOptions optstring text).1, (wordOptions optstring text).2)
    | some false => ((opt, none) :: (wordOptions optstring text).1, (wordOptions optstring text).2)
    | some true => if text.isEmpty then ([], some opt) else ([(opt, some text)], none)

/-- What `getopt` returns one after the other, with the argument it leaves in `optarg`. Words that
are no options are passed over, and two hyphens end the options. -/
def getopt (optstring : OptString) : Option UInt8 → List Bytes → List (UInt8 × Option Bytes)
  | none, [] => []
  | some _, [] => [(63, none)]
  | some opt, word :: rest => (opt, some word) :: getopt optstring none rest
  | none, word :: rest =>
    match word with
    | 45 :: text =>
      if text = [45] then []
      else
        (wordOptions optstring text).1 ++ getopt optstring (wordOptions optstring text).2 rest
    | _ => getopt optstring none rest

section Options

variable {optstring : OptString} {opt : UInt8}

theorem getopt_flag (h : optstring opt = some false) (hopt : opt ≠ 45) (rest : List Bytes) :
    getopt optstring none ([45, opt] :: rest) = (opt, none) :: getopt optstring none rest := by
  have hend : ([opt] : Bytes) ≠ [45] := by simpa using hopt
  simp only [getopt, if_neg hend, wordOptions, h, List.singleton_append]

theorem getopt_argument (h : optstring opt = some true) (hopt : opt ≠ 45) (word : Bytes)
    (rest : List Bytes) :
    getopt optstring none ([45, opt] :: word :: rest) =
      (opt, some word) :: getopt optstring none rest := by
  have hend : ([opt] : Bytes) ≠ [45] := by simpa using hopt
  simp only [getopt, if_neg hend, wordOptions, h, List.isEmpty_nil, if_true, List.nil_append]

end Options

end Framework
