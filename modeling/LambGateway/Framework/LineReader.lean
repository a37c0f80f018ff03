import LambGateway.Framework.CText

/-!
# Lines of a file and a reader of bounded pieces

`fgets` stops behind a line feed or when its buffer is full. On a line that does not fit it gives
pieces of the line; a piece never reaches into the line behind.
-/

namespace Framework

def lineFeed : UInt8 := 10

def carriageReturn : UInt8 := 13

/-- The lines of a file, each with its line feed, which only the last one may be without. -/
def rawLines : Bytes → List Bytes
  | [] => []
  | b :: rest =>
    if b = lineFeed then [b] :: rawLines rest
    else
      match rawLines rest with
      | [] => [[b]]
      | raw :: raws => (b :: raw) :: raws

/-- What stands on a line: its end is a line feed, with or without a carriage return. -/
def content (raw : Bytes) : Bytes :=
  if raw.getLast? = some lineFeed then
    if raw.dropLast.getLast? = some carriageReturn then raw.dropLast.dropLast else raw.dropLast
  else raw

/-- The next bytes: no more than `n`, and none behind a line feed. -/
def takeChunk : Nat → Bytes → Bytes × Bytes
  | 0, stream => ([], stream)
  | _ + 1, [] => ([], [])
  | n + 1, b :: stream =>
    if b = lineFeed then ([b], stream)
    else (b :: (takeChunk n stream).1, (takeChunk n stream).2)

/-- `fgets` with a buffer of `length` bytes: what is read, and what is left of the stream. -/
def fgets (length : Nat) (stream : Bytes) : Option (Bytes × Bytes) :=
  if stream = [] then none else some (takeChunk (length - 1) stream)

/-! ## Lines -/

/-- A line feed can only be the last byte. -/
def LineShaped (raw : Bytes) : Prop := lineFeed ∉ raw.dropLast

/-- The line is over, or there is nothing yet. -/
def Closed (raw : Bytes) : Prop := ∀ b ∈ raw.getLast?, b = lineFeed

theorem LineShaped.tail {b : UInt8} {raw : Bytes} (h : LineShaped (b :: raw)) :
    LineShaped raw := by
  cases raw with
  | nil => exact List.not_mem_nil
  | cons c raw => exact fun hmem => h (List.mem_cons_of_mem b hmem)

theorem Closed.tail {b : UInt8} {raw : Bytes} (h : Closed (b :: raw)) : Closed raw := by
  cases raw with
  | nil => exact fun b hb => nomatch hb
  | cons c raw => rwa [Closed, List.getLast?_cons_cons] at h

theorem LineShaped.drop {raw : Bytes} (h : LineShaped raw) (n : Nat) :
    LineShaped (raw.drop n) := by
  induction n generalizing raw with
  | zero => exact h
  | succ n ih =>
    cases raw with
    | nil => exact h
    | cons b raw => exact ih h.tail

theorem Closed.drop {raw : Bytes} (h : Closed raw) (n : Nat) : Closed (raw.drop n) := by
  induction n generalizing raw with
  | zero => exact h
  | succ n ih =>
    cases raw with
    | nil => exact h
    | cons b raw => exact ih h.tail

/-- Inside of a line: more is to come. -/
theorem LineShaped.head_ne {b c : UInt8} {raw : Bytes} (h : LineShaped (b :: c :: raw)) :
    b ≠ lineFeed := by
  rintro rfl
  exact h List.mem_cons_self

theorem rawLines_append {raw : Bytes} (hshape : LineShaped raw)
    (hlast : raw.getLast? = some lineFeed) (rest : Bytes) :
    rawLines (raw ++ rest) = raw :: rawLines rest := by
  induction raw with
  | nil => exact nomatch hlast
  | cons b raw ih =>
    cases raw with
    | nil =>
      obtain rfl : b = lineFeed := Option.some.inj hlast
      rw [List.singleton_append, rawLines, if_pos rfl]
    | cons c raw =>
      rw [List.getLast?_cons_cons] at hlast
      rw [List.cons_append, rawLines, if_neg hshape.head_ne, ih hshape.tail hlast]

theorem rawLines_of_not_mem {text : Bytes} (h : lineFeed ∉ text) (hne : text ≠ []) :
    rawLines text = [text] := by
  induction text with
  | nil => exact absurd rfl hne
  | cons b text ih =>
    have hb : b ≠ lineFeed := by
      rintro rfl
      exact h List.mem_cons_self
    rw [rawLines, if_neg hb]
    cases text with
    | nil => rfl
    | cons c text => rw [ih (fun hmem => h (List.mem_cons_of_mem b hmem)) (List.cons_ne_nil c text)]

/-- A file is empty, or a line without a line feed, or begins with a line that has one. -/
theorem lines_induction {P : Bytes → Prop} (nil : P [])
    (last : ∀ text, text ≠ [] → lineFeed ∉ text → P text)
    (line : ∀ raw rest, LineShaped raw → raw.getLast? = some lineFeed → P rest → P (raw ++ rest))
    (file : Bytes) : P file := by
  by_cases hmem : lineFeed ∈ file
  · obtain ⟨front, rest, hfile, hfront⟩ := List.eq_append_cons_of_mem hmem
    have hsplit : file = (front ++ [lineFeed]) ++ rest := by
      rw [List.append_assoc]
      exact hfile
    have hshape : LineShaped (front ++ [lineFeed]) := by
      rwa [LineShaped, List.dropLast_concat]
    have hlen : rest.length < file.length := by
      rw [hsplit, List.length_append, List.length_append, List.length_singleton]
      omega
    rw [hsplit]
    exact line _ rest hshape List.getLast?_concat (lines_induction nil last line rest)
  · by_cases hne : file = []
    · exact hne ▸ nil
    · exact last file hne hmem
termination_by file.length

/-- The lines have the shape of lines, and are not empty. -/
theorem rawLines_shape (file : Bytes) : ∀ raw ∈ rawLines file, LineShaped raw ∧ raw ≠ [] := by
  induction file using lines_induction with
  | nil => exact fun raw h => nomatch h
  | last text hne hmem =>
    rw [rawLines_of_not_mem hmem hne]
    intro raw hraw
    obtain rfl := List.mem_singleton.mp hraw
    exact ⟨fun h => hmem (List.dropLast_subset raw h), hne⟩
  | line raw rest hshape hlast ih =>
    rw [rawLines_append hshape hlast]
    intro raw' hraw
    rcases List.mem_cons.mp hraw with rfl | hrest
    · refine ⟨hshape, ?_⟩
      rintro rfl
      exact nomatch hlast
    · exact ih raw' hrest

/-- A line is its content and one of the three ends. -/
theorem content_append (raw : Bytes) :
    ∃ ending ∈ [[], [lineFeed], [carriageReturn, lineFeed]], raw = content raw ++ ending := by
  rw [content]
  by_cases hfeed : raw.getLast? = some lineFeed
  · obtain ⟨line, rfl⟩ := List.getLast?_eq_some_iff.mp hfeed
    rw [if_pos hfeed, List.dropLast_concat]
    by_cases hreturn : line.getLast? = some carriageReturn
    · obtain ⟨text, rfl⟩ := List.getLast?_eq_some_iff.mp hreturn
      rw [if_pos hreturn, List.dropLast_concat]
      exact ⟨[carriageReturn, lineFeed], by simp, by simp⟩
    · exact ⟨[lineFeed], by simp, by rw [if_neg hreturn]⟩
  · exact ⟨[], by simp, by rw [if_neg hfeed, List.append_nil]⟩

/-! ## Pieces -/

theorem takeChunk_append (n : Nat) (stream : Bytes) :
    (takeChunk n stream).1 ++ (takeChunk n stream).2 = stream := by
  induction n, stream using takeChunk.induct with
  | case1 stream => rfl
  | case2 n => rfl
  | case3 n stream => rw [takeChunk, if_pos rfl, List.singleton_append]
  | case4 n b stream hb ih => rw [takeChunk, if_neg hb, List.cons_append, ih]

/-- A piece of a line, which is over or the last one of the file. -/
theorem takeChunk_line {raw rest : Bytes} (hshape : LineShaped raw)
    (hend : rest = [] ∨ Closed raw ∧ raw ≠ []) (n : Nat) :
    takeChunk n (raw ++ rest) = (raw.take n, raw.drop n ++ rest) := by
  induction n generalizing raw with
  | zero => rfl
  | succ n ih =>
    cases raw with
    | nil =>
      obtain rfl := hend.resolve_right fun h => h.2 rfl
      rfl
    | cons b raw =>
      cases raw with
      | nil =>
        rw [List.singleton_append, takeChunk]
        by_cases hb : b = lineFeed
        · rw [if_pos hb, List.take_succ_cons, List.take_nil, List.drop_succ_cons, List.drop_nil]
          rfl
        · have hrest : rest = [] := hend.resolve_right fun h => hb (h.1 b rfl)
          subst hrest
          rw [if_neg hb]
          cases n <;> rfl
      | cons c raw =>
        have htail : rest = [] ∨ Closed (c :: raw) ∧ c :: raw ≠ [] :=
          hend.imp_right fun h => ⟨h.1.tail, List.cons_ne_nil c raw⟩
        rw [List.cons_append, takeChunk, if_neg hshape.head_ne, ih hshape.tail htail]
        rfl

theorem fgets_append {length : Nat} {stream chunk rest : Bytes}
    (h : fgets length stream = some (chunk, rest)) : chunk ++ rest = stream := by
  rw [fgets] at h
  split at h
  · exact nomatch h
  · have hchunk := takeChunk_append (length - 1) stream
    rwa [Option.some.inj h] at hchunk

/-- With room for a byte and the terminator, the stream gets shorter. -/
theorem fgets_shorter {length : Nat} {stream chunk rest : Bytes} (hlen : 1 < length)
    (h : fgets length stream = some (chunk, rest)) : rest.length < stream.length := by
  have happend := fgets_append h
  cases stream with
  | nil => exact nomatch h
  | cons b stream =>
    obtain ⟨n, rfl⟩ : ∃ n, length = n + 2 := ⟨length - 2, by omega⟩
    have hchunk : chunk ≠ [] := by
      rintro rfl
      have hfirst := congrArg Prod.fst (Option.some.inj h)
      change (takeChunk (n + 1) (b :: stream)).1 = [] at hfirst
      rw [takeChunk] at hfirst
      split at hfirst <;> exact nomatch hfirst
    rw [← happend, List.length_append]
    exact Nat.lt_add_of_pos_left (List.length_pos_iff.mpr hchunk)

theorem fgets_line {raw rest : Bytes} (hne : raw ≠ []) (hshape : LineShaped raw)
    (hend : rest = [] ∨ Closed raw) (length : Nat) :
    fgets length (raw ++ rest) = some (raw.take (length - 1), raw.drop (length - 1) ++ rest) := by
  rw [fgets, if_neg (List.append_ne_nil_of_left_ne_nil hne rest),
    takeChunk_line hshape (hend.imp_right fun h => ⟨h, hne⟩)]

end Framework
