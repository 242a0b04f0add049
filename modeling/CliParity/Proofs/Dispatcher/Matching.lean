import CliParity.Dispatcher.Line
import CliParity.Proofs.Dispatcher.Comparison
import CliParity.Proofs.Text.Leftmost

/-!
# What is found on a line

A comparison and a call that writes a reply are found on a line exactly where the line holds a text
of their shape: `Comparison.Written` and `ReplyCall`. The one found is the leftmost, whatever stands
in front of it that begins like the shape and does not complete it (`reads_written`,
`reads_replyCall`). `matches_leftmost` says so of the comparison of a line and of its reply
template.
-/

set_option autoImplicit false

namespace CliParity.Dispatcher

open Text

/-! ## Comparisons -/

namespace Comparison

/-- A way to write a comparison. -/
def Written (c : Comparison) (w : List Char) : Prop :=
  ∃ (parts : Parts) (spacing : Spacing), w = parts.text spacing ∧ c = parts.comparison

theorem reads_written : Reads read? Written where
  read_iff := by
    intro s c rest
    rw [read?_eq_some_iff]
    constructor
    · rintro ⟨parts, spacing, rfl, rfl⟩
      exact ⟨_, ⟨parts, spacing, rfl, rfl⟩, rfl⟩
    · rintro ⟨_, ⟨parts, spacing, rfl, rfl⟩, rfl⟩
      exact ⟨parts, spacing, rfl, rfl⟩
  ne_nil := by
    rintro c _ ⟨parts, spacing, rfl, -⟩
    exact List.append_ne_nil_of_left_ne_nil (parts.front_ne_nil spacing) _

/-- The length argument is a number if it is in ASCII digits and fits a machine word. -/
theorem Parts.declaredLength_eq_some_iff (parts : Parts) {n : Nat} :
    parts.comparison.declaredLength = some n ↔
      (∀ d ∈ parts.digits, isAsciiDigit d = true) ∧ n < wordLimit ∧
        n = Nat.ofDigitChars 10 parts.digits 0 := by
  have hne : parts.digits.isEmpty = false := by simpa using parts.digits_ne_nil
  rw [comparison, wordValue?]
  simp only [hne, Bool.not_false, Bool.true_and, Bool.and_eq_true, List.all_eq_true,
    decide_eq_true_eq, Option.ite_none_right_eq_some, Option.some.injEq]
  constructor
  · rintro ⟨⟨hdigits, hlt⟩, rfl⟩
    exact ⟨hdigits, hlt, rfl⟩
  · rintro ⟨hdigits, hlt, rfl⟩
    exact ⟨⟨hdigits, hlt⟩, rfl⟩

end Comparison

/-! ## Replies -/

/-- A way to write a call of `function` with a literal for the reply, up to the end of the
literal. -/
def ReplyCall (function : String) (literal w : List Char) : Prop :=
  ∃ name opening subject comma : Blanks, '"' ∉ literal ∧
    w = function.toList ++ (name.val ++ '(' :: (opening.val ++ ("reply".toList ++
      (subject.val ++ ',' :: (comma.val ++ '"' :: (literal ++ ['"']))))))

/-- A literal is read up to its closing quote. -/
theorem after?_dropWhile_quote_iff {s rest : List Char} :
    after? ['"'] (s.dropWhile (· != '"')) = some rest ↔
      '"' ∉ s.takeWhile (· != '"') ∧ s = s.takeWhile (· != '"') ++ '"' :: rest := by
  have hquote : '"' ∉ s.takeWhile (· != '"') := fun h => by simpa using List.mem_takeWhile_imp h
  rw [after?_eq_some_iff, and_iff_right hquote, List.singleton_append]
  constructor
  · intro h
    rw [← h, List.takeWhile_append_dropWhile]
  · intro h
    exact List.append_cancel_left (List.takeWhile_append_dropWhile.trans h)

theorem takeWhile_quote {literal : List Char} (h : '"' ∉ literal) (rest : List Char) :
    (literal ++ '"' :: rest).takeWhile (· != '"') = literal := by
  rw [takeWhile_append_of_head (by simp), List.takeWhile_eq_self_iff]
  intro c hc
  simpa using fun he : c = '"' => h (he ▸ hc)

theorem readReply?_eq_some_iff {function : String} {s literal rest : List Char} :
    readReply? function s = some (literal, rest) ↔
      ∃ w, ReplyCall function literal w ∧ s = w ++ rest := by
  have hopen : ∀ {s t}, after? ['('] (skipBlanks s) = some t ↔
      ∃ blanks : Blanks, s = blanks.val ++ '(' :: t := after?_skipBlanks_eq_some_iff (by decide)
  have hreply : ∀ {s t}, after? "reply".toList (skipBlanks s) = some t ↔
      ∃ blanks : Blanks, s = blanks.val ++ ("reply".toList ++ t) :=
    after?_skipBlanks_eq_some_iff (by decide)
  have hcomma : ∀ {s t}, after? [','] (skipBlanks s) = some t ↔
      ∃ blanks : Blanks, s = blanks.val ++ ',' :: t := after?_skipBlanks_eq_some_iff (by decide)
  have hquote : ∀ {s t}, after? ['"'] (skipBlanks s) = some t ↔
      ∃ blanks : Blanks, s = blanks.val ++ '"' :: t := after?_skipBlanks_eq_some_iff (by decide)
  simp only [readReply?, Option.bind_eq_bind, Option.bind_eq_some_iff, Option.pure_def,
    Option.some.injEq, Prod.mk.injEq, hopen, hreply, hcomma, hquote, after?_dropWhile_quote_iff,
    after?_eq_some_iff (p := function.toList)]
  constructor
  · rintro ⟨_, rfl, _, ⟨b₁, rfl⟩, _, ⟨b₂, rfl⟩, _, ⟨b₃, rfl⟩, s, ⟨b₄, rfl⟩, _, ⟨hq, hs⟩, rfl, rfl⟩
    refine ⟨_, ⟨b₁, b₂, b₃, b₄, hq, rfl⟩, ?_⟩
    nth_rewrite 1 [hs]
    simp
  · rintro ⟨_, ⟨b₁, b₂, b₃, b₄, hq, rfl⟩, rfl⟩
    refine ⟨_, by simp, _, ⟨b₁, rfl⟩, _, ⟨b₂, rfl⟩, _, ⟨b₃, rfl⟩, literal ++ '"' :: rest,
      ⟨b₄, rfl⟩, rest, ?_⟩
    simp [takeWhile_quote hq, hq]

theorem reads_replyCall (function : String) : Reads (readReply? function) (ReplyCall function) where
  read_iff := readReply?_eq_some_iff
  ne_nil := by
    rintro literal _ ⟨name, opening, subject, comma, -, rfl⟩
    simp

/-- The literal of the leftmost call of a function, unless it is empty. -/
theorem filter_firstMatch?_eq_some_iff {function : String} {line literal : List Char} :
    (firstMatch? (readReply? function) line).filter (fun l => !l.isEmpty) = some literal ↔
      Leftmost (ReplyCall function) line literal ∧ literal ≠ [] := by
  rw [Option.filter_eq_some_iff, (reads_replyCall function).firstMatch?_eq_some_iff]
  simp

theorem filter_firstMatch?_eq_none_iff {function : String} {line : List Char} :
    (firstMatch? (readReply? function) line).filter (fun l => !l.isEmpty) = none ↔
      ∀ l, Leftmost (ReplyCall function) line l → l = [] := by
  simp only [Option.eq_none_iff_forall_ne_some, ne_eq, filter_firstMatch?_eq_some_iff, not_and,
    not_not]

theorem replyTemplate?_eq_some_iff {line literal : List Char} :
    replyTemplate? line = some literal ↔ literal ≠ [] ∧
      (Leftmost (ReplyCall "sprintf") line literal ∨
        (∀ l, Leftmost (ReplyCall "sprintf") line l → l = []) ∧
          Leftmost (ReplyCall "strcpy") line literal) := by
  have hor : replyTemplate? line =
      ((firstMatch? (readReply? "sprintf") line).filter fun l => !l.isEmpty).or
        ((firstMatch? (readReply? "strcpy") line).filter fun l => !l.isEmpty) := by
    rw [replyTemplate?, replyFunctions, List.findSome?_cons, List.findSome?_cons,
      List.findSome?_nil]
    generalize (firstMatch? (readReply? "sprintf") line).filter _ = preferred
    generalize (firstMatch? (readReply? "strcpy") line).filter _ = other
    cases preferred <;> cases other <;> rfl
  rw [hor, Option.or_eq_some_iff, filter_firstMatch?_eq_some_iff, filter_firstMatch?_eq_some_iff,
    filter_firstMatch?_eq_none_iff]
  tauto

/-! ## A line -/

/-- **What is found on a line is the leftmost text of its shape.** The comparison of a line is the
leftmost one written there, if any is; its length argument is a number if it is in ASCII digits and
fits a machine word. The reply template is the literal of the leftmost call of `sprintf`, or where
this is empty or missing, that of the leftmost call of `strcpy`, unless it is empty. Where there is
a call of either, one is leftmost. -/
theorem matches_leftmost (line : List Char) :
    (∀ c, Comparison.first? line = some c ↔ Leftmost Comparison.Written line c) ∧
    ((Comparison.first? line).isSome ↔ Occurs Comparison.Written line) ∧
    (∀ (parts : Comparison.Parts) (n : Nat), parts.comparison.declaredLength = some n ↔
      (∀ d ∈ parts.digits, isAsciiDigit d = true) ∧ n < wordLimit ∧
        n = Nat.ofDigitChars 10 parts.digits 0) ∧
    (∀ literal, replyTemplate? line = some literal ↔ literal ≠ [] ∧
      (Leftmost (ReplyCall "sprintf") line literal ∨
        (∀ l, Leftmost (ReplyCall "sprintf") line l → l = []) ∧
          Leftmost (ReplyCall "strcpy") line literal)) ∧
    ∀ function, Occurs (ReplyCall function) line ↔ ∃ l, Leftmost (ReplyCall function) line l := by
  have hwritten := Comparison.reads_written
  refine ⟨fun c => hwritten.firstMatch?_eq_some_iff, hwritten.firstMatch?_isSome_iff,
    fun parts n => parts.declaredLength_eq_some_iff, fun literal => replyTemplate?_eq_some_iff,
    fun function => ⟨(reads_replyCall function).exists_leftmost, ?_⟩⟩
  rintro ⟨l, hl⟩
  exact hl.occurs

/-- A comparison whose literal runs up to the quote of the next one, one with a length that is no
numeral, and one with a digit outside ASCII. -/
theorem found_behind_unclosed :
    Leftmost Comparison.Written
      "memcmp(command,\"a memcmp(config,\"b\",x) memcmp( config ,\"c \",\u0663)".toList
      ⟨.config, "c ".toList, none⟩ :=
  ((matches_leftmost _).1 _).1 (by decide +kernel)

end CliParity.Dispatcher
