import HttpFs.Foundation.Numeral

namespace HttpFs

/-! Messages with a head of lines, an empty line, and a body whose length the head declares,
as a reader takes them from what has arrived before the end of a connection. -/

namespace HttpMessage

def lineEnd : Bytes := ascii "\r\n"

/-- A line that has something in it, and no part of a line end. -/
structure IsLine (line : Bytes) : Prop where
  ne_nil : line ≠ []
  noCr : byte '\r' ∉ line
  noLf : byte '\n' ∉ line

def headText (lines : List Bytes) : Bytes :=
  (lines.map fun line => line ++ lineEnd).flatten ++ lineEnd

/-- The lines up to the first empty one, and what follows it; `line` is what is known of
the first. -/
def splitHead : Bytes → Bytes → Option (List Bytes × Bytes)
  | c :: d :: rest, line =>
      if c = byte '\r' ∧ d = byte '\n' then
        if line = [] then
          some ([], rest)
        else
          (splitHead rest []).map fun (lines, body) => (line :: lines, body)
      else
        splitHead (d :: rest) (line ++ [c])
  | [_], _ => none
  | [], _ => none

theorem splitHead_line {first : Bytes} (noCr : byte '\r' ∉ first) (rest line : Bytes)
    (known : line ++ first ≠ []) :
    splitHead (first ++ (lineEnd ++ rest)) line =
      (splitHead rest []).map fun (lines, body) => ((line ++ first) :: lines, body) := by
  induction first generalizing line with
  | nil =>
      have nonempty : line ≠ [] := by simpa using known
      change splitHead (byte '\r' :: byte '\n' :: rest) line = _
      rw [splitHead, if_pos ⟨rfl, rfl⟩, if_neg nonempty, List.append_nil]
  | cons c tail induction =>
      simp only [List.mem_cons, not_or] at noCr
      have step : splitHead (c :: (tail ++ (lineEnd ++ rest))) line =
          splitHead (tail ++ (lineEnd ++ rest)) (line ++ [c]) := by
        have other : ∀ d more, splitHead (c :: d :: more) line =
            splitHead (d :: more) (line ++ [c]) := by
          intro d more
          rw [splitHead, if_neg fun isEnd => noCr.1 isEnd.1.symm]
        cases tail with
        | nil => exact other _ _
        | cons d tail => exact other d _
      rw [List.cons_append, step, induction noCr.2 (line ++ [c]) (by simp)]
      simp

theorem splitHead_headText {lines : List Bytes} (areLines : ∀ line ∈ lines, IsLine line)
    (body : Bytes) : splitHead (headText lines ++ body) [] = some (lines, body) := by
  induction lines with
  | nil =>
      change splitHead (byte '\r' :: byte '\n' :: body) [] = _
      rw [splitHead, if_pos ⟨rfl, rfl⟩, if_pos rfl]
  | cons line lines induction =>
      have isLine := areLines line (List.mem_cons_self ..)
      have text : headText (line :: lines) ++ body =
          line ++ (lineEnd ++ (headText lines ++ body)) := by
        simp [headText]
      rw [text, splitHead_line isLine.noCr _ _ (by simpa using isLine.ne_nil),
        induction fun other member => areLines other (List.mem_cons_of_mem _ member)]
      simp

def lengthName : Bytes := ascii "Content-Length: "

/-- The length that a line declares, if it does. -/
def lineLength (line : Bytes) : Option Nat :=
  if lengthName <+: line then
    some (digitsValue ((line.drop lengthName.length).takeWhile isDigit))
  else
    none

/-- What a reader makes of all that has arrived. -/
inductive Reading where
  | incomplete
  | undeclared (lines : List Bytes) (body : Bytes)
  | cut (lines : List Bytes) (body : Bytes) (missing : Nat)
  | whole (lines : List Bytes) (body : Bytes)
  deriving Repr, DecidableEq

def read (text : Bytes) : Reading :=
  match splitHead text [] with
  | none => .incomplete
  | some (lines, rest) =>
      match lines.findSome? lineLength with
      | none => .undeclared lines rest
      | some length =>
          if rest.length < length then .cut lines rest (length - rest.length)
          else .whole lines (rest.take length)

/-- One line declares the length of the body, and no line before it declares another. -/
def Declares (lines : List Bytes) (body : Bytes) : Prop :=
  lines.findSome? lineLength = some body.length

theorem lineLength_decimal (n : Nat) : lineLength (lengthName ++ decimal n) = some n := by
  have digits := (takeWhile_decimal n (show EndsNumeral [] by simp [EndsNumeral])).1
  rw [List.append_nil] at digits
  rw [lineLength, if_pos (List.prefix_append _ _), List.drop_left, digits, digitsValue_decimal]

variable {lines : List Bytes} {body : Bytes}

/-- A message is read as it was written, whatever follows it. -/
theorem read_whole (areLines : ∀ line ∈ lines, IsLine line) (declares : Declares lines body)
    (more : Bytes) : read (headText lines ++ (body ++ more)) = .whole lines body := by
  have enough : ¬ (body ++ more).length < body.length := by
    rw [List.length_append]
    omega
  unfold Declares at declares
  simp only [read, splitHead_headText areLines, declares, if_neg enough, List.take_left]

/-- Where no line feed is, no head ends. -/
theorem splitHead_noLf {text : Bytes} (noLf : byte '\n' ∉ text) (line : Bytes) :
    splitHead text line = none := by
  fun_induction splitHead text line with
  | case1 c d rest isEnd => simp [isEnd.2] at noLf
  | case2 c d rest line isEnd => simp [isEnd.2] at noLf
  | case3 c d rest line notEnd induction =>
      exact induction fun inRest => noLf (List.mem_cons_of_mem _ inRest)
  | case4 | case5 => rfl

theorem prefix_append_cases {part first rest : Bytes} (isPart : part <+: first ++ rest) :
    part <+: first ∨ ∃ more, part = first ++ more ∧ more <+: rest := by
  rcases Nat.le_total part.length first.length with shorter | longer
  · exact .inl (List.prefix_of_prefix_length_le isPart (List.prefix_append first rest) shorter)
  · obtain ⟨more, rfl⟩ := List.prefix_of_prefix_length_le (List.prefix_append first rest) isPart
      longer
    exact .inr ⟨more, rfl, (List.prefix_append_right_inj first).mp isPart⟩

/-- A head that stops is not ended by what follows, if that has no line feed in it. -/
theorem splitHead_cut {lines : List Bytes} (areLines : ∀ line ∈ lines, IsLine line)
    {part rest : Bytes} (isPart : part <+: headText lines) (short : part ≠ headText lines)
    (noLf : byte '\n' ∉ rest) : splitHead (part ++ rest) [] = none := by
  have cutEnd {line part : Bytes} (inLine : byte '\n' ∉ line)
      (isPart : part <+: line ++ lineEnd) (short : part ≠ line ++ lineEnd) :
      splitHead (part ++ rest) [] = none := by
    have ending : line ++ lineEnd = line ++ [byte '\r'] ++ [byte '\n'] := by
      simp [lineEnd, ascii]
    rw [ending] at isPart short
    have before := (List.prefix_concat_iff.mp isPart).resolve_left short
    apply splitHead_noLf
    simp only [List.mem_append, not_or]
    refine ⟨fun inPart => ?_, noLf⟩
    obtain inside | isCr := List.mem_append.mp (before.subset inPart)
    · exact inLine inside
    · exact absurd isCr (by decide)
  induction lines generalizing part with
  | nil =>
      exact @cutEnd [] part (by simp) isPart short
  | cons line lines induction =>
      obtain ⟨isLine, others⟩ := List.forall_mem_cons.mp areLines
      have text : headText (line :: lines) = line ++ lineEnd ++ headText lines := by
        simp [headText]
      rw [text] at isPart short
      obtain inFirst | ⟨more, rfl, inRest⟩ := prefix_append_cases isPart
      · by_cases ended : part = line ++ lineEnd
        · have nothing : ([] : Bytes) ≠ headText lines := by
            simp [headText, lineEnd, ascii]
          subst ended
          rw [List.append_assoc, splitHead_line isLine.noCr _ _ (by simpa using isLine.ne_nil)]
          have none := induction others List.nil_prefix nothing
          rw [List.nil_append] at none
          rw [none]
          rfl
        · exact cutEnd isLine.noLf inFirst ended
      · have shorter : more ≠ headText lines := fun same => short (by rw [same])
        rw [List.append_assoc, List.append_assoc,
          splitHead_line isLine.noCr _ _ (by simpa using isLine.ne_nil),
          induction others inRest shorter]
        rfl

theorem read_incomplete (areLines : ∀ line ∈ lines, IsLine line) {part rest : Bytes}
    (isPart : part <+: headText lines) (short : part ≠ headText lines)
    (noLf : byte '\n' ∉ rest) : read (part ++ rest) = .incomplete := by
  rw [read, splitHead_cut areLines isPart short noLf]

/-- A message that stops within its body is not taken for a whole one. -/
theorem read_cut (areLines : ∀ line ∈ lines, IsLine line) (declares : Declares lines body)
    {part : Bytes} (isPart : part <+: body) (short : part ≠ body) :
    read (headText lines ++ part) = .cut lines part (body.length - part.length) := by
  have missing : part.length < body.length := by
    rcases Nat.lt_or_ge part.length body.length with less | all
    · exact less
    · exact absurd (isPart.eq_of_length_le all) short
  unfold Declares at declares
  simp only [read, splitHead_headText areLines, declares, if_pos missing]

end HttpMessage

end HttpFs
