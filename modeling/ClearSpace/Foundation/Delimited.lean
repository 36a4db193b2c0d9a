import Mathlib.Data.List.Basic

/-! # Delimited streams

Reading the segments of a stream that arrives in chunks. What a delimiter
terminates is given by `List.splitOn`; the reader below works on a buffer and on
the chunks that have not arrived yet. -/

namespace ClearSpace.Delimited

variable {Byte : Type u} [DecidableEq Byte]

/-- The segments of the stream that a delimiter ends. -/
def terminated (delimiter : Byte) (stream : List Byte) : List (List Byte) :=
  (stream.splitOn delimiter).dropLast

/-- Take chunks until the buffer has a delimiter or the stream is over. -/
def fill (delimiter : Byte) (buffer : List Byte) :
    List (List Byte) → List Byte × List (List Byte)
  | [] => (buffer, [])
  | chunk :: rest =>
      if delimiter ∈ buffer then (buffer, chunk :: rest)
      else fill delimiter (buffer ++ chunk) rest

/-- The first segment of a buffer and what follows its delimiter. -/
def getline (delimiter : Byte) (buffer : List Byte) : List Byte × List Byte :=
  (buffer.takeWhile (· ≠ delimiter), (buffer.dropWhile (· ≠ delimiter)).tail)

variable {delimiter : Byte}

theorem terminated_of_not_mem {stream : List Byte} (absent : delimiter ∉ stream) :
    terminated delimiter stream = [] := by
  rw [terminated, List.splitOn_eq_singleton absent]
  rfl

theorem terminated_cons {segment : List Byte} (absent : delimiter ∉ segment)
    (rest : List Byte) :
    terminated delimiter (segment ++ delimiter :: rest) =
      segment :: terminated delimiter rest := by
  rw [terminated, List.splitOn_append_cons_self, List.splitOn_eq_singleton absent,
    List.singleton_append]
  exact List.dropLast_cons_of_ne_nil (List.splitOn_ne_nil _ _)

/-- Filling neither loses nor reorders bytes. -/
theorem fill_append (buffer : List Byte) (chunks : List (List Byte)) :
    (fill delimiter buffer chunks).1 ++ (fill delimiter buffer chunks).2.flatten =
      buffer ++ chunks.flatten := by
  induction chunks generalizing buffer with
  | nil => rfl
  | cons chunk rest induction =>
      rw [fill]
      split
      · rfl
      · rw [induction, List.flatten_cons, List.append_assoc]

theorem mem_fill {buffer : List Byte} {chunks : List (List Byte)} :
    delimiter ∈ (fill delimiter buffer chunks).1 ↔
      delimiter ∈ buffer ++ chunks.flatten := by
  induction chunks generalizing buffer with
  | nil => simp [fill]
  | cons chunk rest induction =>
      rw [fill]
      split
      next present => simp [present]
      next => rw [induction, List.flatten_cons, List.append_assoc]

theorem getline_eq {buffer : List Byte} (present : delimiter ∈ buffer) :
    buffer = (getline delimiter buffer).1 ++ delimiter :: (getline delimiter buffer).2 ∧
      delimiter ∉ (getline delimiter buffer).1 := by
  induction buffer with
  | nil => cases present
  | cons byte rest induction =>
      by_cases isDelimiter : byte = delimiter
      · simp [getline, isDelimiter]
      · have later : delimiter ∈ rest :=
          (List.mem_cons.mp present).resolve_left (Ne.symm isDelimiter)
        rcases induction later with ⟨split, absent⟩
        simp only [getline] at split absent ⊢
        rw [List.takeWhile_cons_of_pos (by simpa using isDelimiter),
          List.dropWhile_cons_of_pos (by simpa using isDelimiter)]
        constructor
        · exact congrArg (byte :: ·) split
        · simp only [List.mem_cons, not_or]
          exact ⟨Ne.symm isDelimiter, absent⟩

theorem terminated_turn {buffer : List Byte} {chunks : List (List Byte)}
    (present : delimiter ∈ (fill delimiter buffer chunks).1) :
    terminated delimiter (buffer ++ chunks.flatten) =
      (getline delimiter (fill delimiter buffer chunks).1).1 ::
        terminated delimiter ((getline delimiter (fill delimiter buffer chunks).1).2 ++
          (fill delimiter buffer chunks).2.flatten) := by
  rcases getline_eq present with ⟨split, absent⟩
  rw [← terminated_cons absent, ← fill_append, ← List.cons_append, ← List.append_assoc,
    ← split]

theorem terminated_append {segments : List (List Byte)}
    (absent : ∀ segment ∈ segments, delimiter ∉ segment) (rest : List Byte) :
    terminated delimiter (segments.flatMap (· ++ [delimiter]) ++ rest) =
      segments ++ terminated delimiter rest := by
  induction segments with
  | nil => rfl
  | cons segment later induction =>
      rw [List.flatMap_cons, List.append_assoc, List.append_assoc, List.singleton_append,
        terminated_cons (absent segment List.mem_cons_self),
        induction fun other member => absent other (List.mem_cons_of_mem _ member)]
      rfl

/-- Of a stream that is cut off the first segments are known. -/
theorem terminated_begins (stream rest : List Byte) :
    terminated delimiter stream <+: terminated delimiter (stream ++ rest) := by
  by_cases present : delimiter ∈ stream
  · rcases getline_eq present with ⟨split, absent⟩
    have shorter : (getline delimiter stream).2.length < stream.length := by
      have whole := congrArg List.length split
      rw [List.length_append, List.length_cons] at whole
      omega
    rw [split, terminated_cons absent, List.append_assoc, List.cons_append,
      terminated_cons absent]
    exact List.prefix_cons_inj _ |>.mpr (terminated_begins _ rest)
  · rw [terminated_of_not_mem present]
    exact List.nil_prefix
termination_by stream.length

end ClearSpace.Delimited
