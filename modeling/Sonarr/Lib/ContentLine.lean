import Sonarr.Lib.Bytes

namespace Sonarr.Lib.ContentLine

def crlf : Bytes := [13, 10]

/-- Unfolding: each line break followed by a space is dropped. -/
def unfold : Bytes → Bytes
  | 13 :: 10 :: 32 :: rest => unfold rest
  | b :: rest => b :: unfold rest
  | [] => []

/-- The lines of a text in which a line break ends each line. -/
def lines : Bytes → List Bytes
  | [] => []
  | 13 :: 10 :: rest => [] :: lines rest
  | b :: rest =>
    match lines rest with
    | [] => [[b]]
    | l :: ls => (b :: l) :: ls

theorem unfold_crlf_space (rest : Bytes) : unfold (crlf ++ 32 :: rest) = unfold rest := by
  simp [crlf, unfold]

theorem unfold_cons {b : UInt8} {rest : Bytes} (h : b = 13 → rest.head? ≠ some 10) :
    unfold (b :: rest) = b :: unfold rest := by
  rw [unfold]
  rintro tail rfl rfl
  exact h rfl rfl

theorem unfold_crlf {rest : Bytes} (h : rest.head? ≠ some 32) :
    unfold (crlf ++ rest) = crlf ++ unfold rest := by
  have hlf : unfold (10 :: rest) = 10 :: unfold rest := unfold_cons (fun he => absurd he (by decide))
  show unfold (13 :: 10 :: rest) = 13 :: 10 :: unfold rest
  rw [← hlf, unfold]
  rintro tail - he
  rw [(List.cons.inj he).2] at h
  exact h rfl

/-- Bytes without a newline are kept up to the next line break. -/
theorem unfold_append {l : Bytes} (h : 10 ∉ l) (rest : Bytes) :
    unfold (l ++ crlf ++ rest) = l ++ unfold (crlf ++ rest) := by
  induction l with
  | nil => rfl
  | cons b l ih =>
    rw [List.mem_cons, not_or] at h
    show unfold (b :: (l ++ crlf ++ rest)) = b :: (l ++ unfold (crlf ++ rest))
    rw [unfold_cons, ih h.2]
    intro _
    cases l with
    | nil => exact fun he => absurd (Option.some.inj he) (by decide)
    | cons d l =>
      rw [List.mem_cons, not_or] at h
      exact fun he => h.2.1 (Option.some.inj he).symm

theorem lines_append {l : Bytes} (h : 10 ∉ l) (rest : Bytes) :
    lines (l ++ crlf ++ rest) = l :: lines rest := by
  induction l with
  | nil => rfl
  | cons b l ih =>
    rw [List.mem_cons, not_or] at h
    show lines (b :: (l ++ crlf ++ rest)) = (b :: l) :: lines rest
    rw [lines, ih h.2]
    rintro tail rfl he
    cases l with
    | nil => exact absurd (List.cons.inj he).1 (by decide)
    | cons d l =>
      rw [List.mem_cons, not_or] at h
      exact h.2.1 (List.cons.inj he).1.symm

/-- A text value escaped byte by byte. -/
def escapeByte (b : UInt8) : Bytes :=
  if b = 92 then [92, 92]
  else if b = 59 then [92, 59]
  else if b = 44 then [92, 44]
  else if b = 10 then [92, 110]
  else [b]

def escape (text : Bytes) : Bytes := text.flatMap escapeByte

/-- The value of a text: `\n` and `\N` are newlines, a backslash before any other
byte stands for that byte. -/
def unescape : Bytes → Bytes
  | 92 :: b :: rest => (if b = 110 ∨ b = 78 then 10 else b) :: unescape rest
  | b :: rest => b :: unescape rest
  | [] => []

/-- The bytes of a value that belong to no escape. -/
def unescaped : Bytes → Bytes
  | 92 :: _ :: rest => unescaped rest
  | b :: rest => b :: unescaped rest
  | [] => []

/-- Every byte is escaped to a pair that stands for it, or is itself no special byte. -/
theorem escapeByte_cases (b : UInt8) :
    (∃ d, escapeByte b = [92, d] ∧ (if d = 110 ∨ d = 78 then 10 else d) = b ∧ d ≠ 10) ∨
      escapeByte b = [b] ∧ b ≠ 92 ∧ b ≠ 59 ∧ b ≠ 44 ∧ b ≠ 10 := by
  unfold escapeByte
  split
  · exact .inl ⟨92, rfl, by simp_all⟩
  · split
    · exact .inl ⟨59, rfl, by simp_all⟩
    · split
      · exact .inl ⟨44, rfl, by simp_all⟩
      · split
        · exact .inl ⟨110, rfl, by simp_all⟩
        · exact .inr ⟨rfl, by assumption, by assumption, by assumption, by assumption⟩

theorem unescape_escape (text : Bytes) : unescape (escape text) = text := by
  induction text with
  | nil => rfl
  | cons b text ih =>
    show unescape (escapeByte b ++ escape text) = b :: text
    rcases escapeByte_cases b with ⟨d, he, hd, -⟩ | ⟨he, hb, -⟩
    · rw [he, ← hd, List.cons_append, List.cons_append, List.nil_append, unescape, ih]
    · rw [he, List.cons_append, List.nil_append, unescape, ih]
      rintro d rest rfl
      exact absurd rfl hb

theorem unescaped_escape (text : Bytes) :
    44 ∉ unescaped (escape text) ∧ 59 ∉ unescaped (escape text) := by
  induction text with
  | nil => exact ⟨List.not_mem_nil, List.not_mem_nil⟩
  | cons b text ih =>
    show 44 ∉ unescaped (escapeByte b ++ escape text) ∧ 59 ∉ unescaped (escapeByte b ++ escape text)
    rcases escapeByte_cases b with ⟨d, he, -, -⟩ | ⟨he, hb, hsemi, hcomma, -⟩
    · rw [he, List.cons_append, List.cons_append, List.nil_append, unescaped]
      exact ih
    · rw [he, List.cons_append, List.nil_append, unescaped]
      · rw [List.mem_cons, not_or, List.mem_cons, not_or]
        exact ⟨⟨hcomma.symm, ih.1⟩, hsemi.symm, ih.2⟩
      · rintro d rest rfl
        exact absurd rfl hb

end Sonarr.Lib.ContentLine
