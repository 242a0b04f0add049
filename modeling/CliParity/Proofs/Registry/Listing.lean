import CliParity.Proofs.Json.Quoted
import CliParity.Proofs.Registry.Grouping
import CliParity.Registry.Listing
import CliParity.Text.Search

/-!
# What a listing tells

No line of a listing holds a line break, whatever the texts of the commands are, so the lines of the
module are those that were joined (`lines_listing`). What is written for a text or an argument is
known from where it starts (`Delimited`), so a list in brackets tells its items
(`Delimited.bracketed_inj`) and the lines of a command tell all that they show of it
(`Command.listing_inj`). Registries with one listing differ at most in what no listing shows
(`listing_faithful`).
-/

set_option autoImplicit false

namespace CliParity

open Text

/-! ## Lists in brackets -/

/-- The text that is written for a value tells the value and where the text ends, and starts
otherwise than with the bracket that closes a list. -/
structure Delimited {α : Type} (write : α → String) : Prop where
  ends : ∀ {a b : α} {s t : List Char},
    (write a).toList ++ s = (write b).toList ++ t → a = b ∧ s = t
  starts : ∀ a, ∃ c s, (write a).toList = c :: s ∧ c ≠ ']'

section
variable {α β : Type} {write : α → String} {xs ys : List α}

theorem Delimited.comp (h : Delimited write) {f : β → α} (hf : Function.Injective f) :
    Delimited fun b => write (f b) where
  ends he := by
    obtain ⟨hab, hst⟩ := h.ends he
    exact ⟨hf hab, hst⟩
  starts b := h.starts (f b)

theorem toList_bracketed_nil : (bracketed []).toList = ['[', ']'] := rfl

theorem toList_bracketed_cons (x : String) (xs : List String) :
    (bracketed (x :: xs)).toList =
      '[' :: (x.toList ++ (xs.flatMap (fun y => ',' :: ' ' :: y.toList) ++ [']'])) := by
  have hsep : ", ".toList = [',', ' '] := rfl
  have hjoin : ∀ x : String, [',', ' '].intercalate ((x :: xs).map String.toList) =
      x.toList ++ xs.flatMap (fun y => ',' :: ' ' :: y.toList) := by
    induction xs with
    | nil => simp
    | cons y ys ih =>
      intro x
      rw [List.map_cons, List.map_cons, List.intercalate_cons_cons, ← List.map_cons, ih]
      simp
  unfold bracketed
  rw [String.toList_append, String.toList_append, String.toList_intercalate, hsep, hjoin]
  simp

/-- What follows the first item tells the further ones. -/
theorem Delimited.further_inj (h : Delimited write)
    (he : (xs.map write).flatMap (fun y => ',' :: ' ' :: y.toList) ++ [']'] =
      (ys.map write).flatMap (fun y => ',' :: ' ' :: y.toList) ++ [']']) : xs = ys := by
  induction xs generalizing ys with
  | nil =>
    cases ys with
    | nil => rfl
    | cons y ys => simp at he
  | cons x xs ih =>
    cases ys with
    | nil => simp at he
    | cons y ys =>
      simp only [List.map_cons, List.flatMap_cons, List.cons_append, List.append_assoc,
        List.cons.injEq, true_and] at he
      obtain ⟨hxy, hrest⟩ := h.ends he
      rw [hxy, ih hrest]

theorem Delimited.bracketed_inj (h : Delimited write) :
    bracketed (xs.map write) = bracketed (ys.map write) ↔ xs = ys := by
  constructor
  · intro he
    have hl := congrArg String.toList he
    cases xs with
    | nil =>
      cases ys with
      | nil => rfl
      | cons y ys =>
        obtain ⟨c, s, hc, hne⟩ := h.starts y
        rw [List.map_nil, List.map_cons, toList_bracketed_nil, toList_bracketed_cons, hc] at hl
        simp [hne.symm] at hl
    | cons x xs =>
      cases ys with
      | nil =>
        obtain ⟨c, s, hc, hne⟩ := h.starts x
        rw [List.map_nil, List.map_cons, toList_bracketed_nil, toList_bracketed_cons, hc] at hl
        simp [hne] at hl
      | cons y ys =>
        rw [List.map_cons, List.map_cons, toList_bracketed_cons, toList_bracketed_cons,
          List.cons.injEq] at hl
        obtain ⟨hxy, hrest⟩ := h.ends hl.2
        rw [hxy, h.further_inj hrest]
  · rintro rfl
    rfl

end

/-! ## Literals and arguments -/

theorem toList_literal (text : String) :
    (literal text).toList = '"' :: (text.toList.flatMap Json.Quoted.escape ++ ['"']) := by
  rw [literal, String.toList_ofList, Json.Quoted.write]

theorem delimited_literal : Delimited literal where
  ends := by
    intro a b s t h
    rw [toList_literal, toList_literal] at h
    simp only [List.cons_append, List.append_assoc, List.nil_append, List.cons.injEq,
      true_and] at h
    -- both texts are read off the same characters
    have ha := Json.Quoted.read?_write a.toList s
    have hb := Json.Quoted.read?_write b.toList t
    rw [h, hb] at ha
    simpa [eq_comm] using ha
  starts a := ⟨'"', _, toList_literal a, by decide⟩

theorem literal_inj {a b : String} : literal a = literal b ↔ a = b := by
  constructor
  · intro h
    have hl : (literal a).toList ++ [] = (literal b).toList ++ [] := by rw [h]
    exact (delimited_literal.ends hl).1
  · rintro rfl
    rfl

theorem ArgumentType.label_injective : Function.Injective ArgumentType.label := by
  intro a b h
  cases a <;> cases b <;> first | rfl | simp [label] at h

theorem truthLiteral_inj {a b : Bool} : truthLiteral a = truthLiteral b ↔ a = b := by
  cases a <;> cases b <;> decide

theorem Argument.delimited_listing : Delimited Argument.listing where
  ends := by
    intro a b s t h
    simp only [Argument.listing, String.toList_append, List.append_assoc,
      List.append_cancel_left_eq] at h
    obtain ⟨hname, htype⟩ := delimited_literal.ends h
    rw [List.append_cancel_left_eq] at htype
    obtain ⟨htype, hrest⟩ :=
      (delimited_literal.comp ArgumentType.label_injective).ends htype
    rw [List.append_cancel_left_eq] at hrest
    obtain ⟨name, type⟩ := a
    cases hname
    cases htype
    exact ⟨rfl, hrest⟩
  starts a := by
    have h : a.listing.toList = '\x7b' :: a.listing.toList.tail := by simp [Argument.listing]
    exact ⟨_, _, h, by decide⟩

/-! ## Commands -/

/-- What a listing shows of a command. -/
def Command.shown (c : Command) : String × Category × List Argument × String × Bool × Bool :=
  (c.name, c.category, c.arguments, c.description, c.serialOnly, c.takesArgument)

theorem Command.listing_inj {a b : Command} : a.listing = b.listing ↔ a.shown = b.shown := by
  simp only [Command.listing, Command.shown, List.cons.injEq, String.append_left_inj,
    String.append_right_inj, literal_inj, Category.label_injective.eq_iff,
    Argument.delimited_listing.bracketed_inj, truthLiteral_inj, Prod.mk.injEq, and_true, true_and]

theorem Command.length_listing (c : Command) : c.listing.length = 8 := rfl

theorem Command.length_flatMap_listing (commands : List Command) :
    (commands.flatMap Command.listing).length = 8 * commands.length := by
  induction commands with
  | nil => rfl
  | cons c commands ih =>
    rw [List.flatMap_cons, List.length_append, ih, Command.length_listing, List.length_cons]
    omega

theorem Command.flatMap_listing_inj {commands commands' : List Command} :
    commands.flatMap Command.listing = commands'.flatMap Command.listing ↔
      commands.map Command.shown = commands'.map Command.shown := by
  induction commands generalizing commands' with
  | nil =>
    cases commands' with
    | nil => simp
    | cons c' commands' => simp [Command.listing]
  | cons c commands ih =>
    cases commands' with
    | nil => simp [Command.listing]
    | cons c' commands' =>
      rw [List.flatMap_cons, List.flatMap_cons, List.map_cons, List.map_cons, List.cons.injEq,
        ← Command.listing_inj, ← ih]
      constructor
      · intro h
        apply List.append_inj h
        rw [length_listing, length_listing]
      · rintro ⟨hc, hrest⟩
        rw [hc, hrest]

/-! ## Lines -/

theorem newline_not_mem_literal (text : String) : '\n' ∉ (literal text).toList := by
  rw [toList_literal]
  simp [Json.Quoted.newline_not_mem_escape]

theorem newline_not_mem_bracketed {items : List String} (h : ∀ x ∈ items, '\n' ∉ x.toList) :
    '\n' ∉ (bracketed items).toList := by
  cases items with
  | nil => decide
  | cons x xs =>
    rw [toList_bracketed_cons]
    simp_all

theorem Argument.newline_not_mem_listing (a : Argument) : '\n' ∉ a.listing.toList := by
  simp [Argument.listing, newline_not_mem_literal]

theorem Command.newline_not_mem_listing (c : Command) :
    ∀ line ∈ c.listing, '\n' ∉ line.toList := by
  have hparams : '\n' ∉ (bracketed (c.arguments.map Argument.listing)).toList := by
    apply newline_not_mem_bracketed
    simp [Argument.newline_not_mem_listing]
  have htruth : ∀ b, '\n' ∉ (truthLiteral b).toList := by decide
  simp [Command.listing, newline_not_mem_literal, hparams, htruth]

/-- The texts that a listing shows as they are have no line break. -/
def Provenance.OnOneLine (p : Provenance) : Prop :=
  '\n' ∉ p.version.toList ∧ '\n' ∉ p.sourceUrl.toList

namespace Registry

variable {r r₁ r₂ : Registry}

theorem newline_not_mem_listingHead (h : r.provenance.OnOneLine) :
    ∀ line ∈ r.listingHead, '\n' ∉ line.toList := by
  simp [listingHead, h.1, h.2]

theorem newline_not_mem_listingTail (r : Registry) :
    ∀ line ∈ r.listingTail, '\n' ∉ line.toList := by
  have hcategories : '\n' ∉ (bracketed (r.categories.map fun c => literal c.label)).toList := by
    apply newline_not_mem_bracketed
    simp [newline_not_mem_literal]
  simp [listingTail, hcategories]

theorem newline_not_mem_listingRest (r : Registry) :
    ∀ line ∈ r.commands.flatMap Command.listing ++ r.listingTail, '\n' ∉ line.toList := by
  intro line hline
  rw [List.mem_append, List.mem_flatMap] at hline
  rcases hline with ⟨c, -, hline⟩ | hline
  · exact c.newline_not_mem_listing line hline
  · exact r.newline_not_mem_listingTail line hline

/-- The lines of a listing are those that were joined. -/
theorem lines_listing (h : r.provenance.OnOneLine) :
    lines r.listing.toList = r.listingLines.map String.toList := by
  have hsep : "\n".toList = ['\n'] := rfl
  rw [lines, listing, String.toList_intercalate, hsep, List.splitOn_intercalate]
  · intro l hl
    obtain ⟨line, hline, rfl⟩ := List.mem_map.1 hl
    rw [listingLines, List.append_assoc, List.mem_append] at hline
    rcases hline with hline | hline
    · exact newline_not_mem_listingHead h line hline
    · exact r.newline_not_mem_listingRest line hline
  · simp [listingLines, listingHead]

theorem listingHead_inj : r₁.listingHead = r₂.listingHead ↔
    r₁.provenance.version = r₂.provenance.version ∧
      r₁.provenance.sourceUrl = r₂.provenance.sourceUrl := by
  simp [listingHead, String.append_right_inj]

theorem listingTail_inj : r₁.listingTail = r₂.listingTail ↔ r₁.categories = r₂.categories := by
  have hlabel : Delimited fun c : Category => literal c.label :=
    delimited_literal.comp Category.label_injective
  have h : bracketed (r₁.categories.map fun c => literal c.label) =
      bracketed (r₂.categories.map fun c => literal c.label) ↔ r₁.categories = r₂.categories :=
    hlabel.bracketed_inj
  simp [listingTail, String.append_left_inj, String.append_right_inj, h]

/-- The lines of two listings are told apart part by part. -/
theorem listingLines_inj : r₁.listingLines = r₂.listingLines ↔
    r₁.listingHead = r₂.listingHead ∧
      r₁.commands.flatMap Command.listing = r₂.commands.flatMap Command.listing ∧
      r₁.listingTail = r₂.listingTail := by
  unfold listingLines
  constructor
  · intro h
    obtain ⟨hfront, htail⟩ := List.append_inj' h rfl
    obtain ⟨hhead, hbody⟩ := List.append_inj hfront rfl
    exact ⟨hhead, hbody, htail⟩
  · rintro ⟨hhead, hbody, htail⟩
    rw [hhead, hbody, htail]

/-- Listings are equal if their lines are. -/
theorem listing_inj (h₁ : r₁.provenance.OnOneLine) (h₂ : r₂.provenance.OnOneLine) :
    r₁.listing = r₂.listing ↔ r₁.listingLines = r₂.listingLines := by
  constructor
  · intro h
    have hl := lines_listing h₁
    rw [h, lines_listing h₂] at hl
    have hinj : Function.Injective String.toList := fun _ _ => String.toList_injective
    exact (List.map_injective_iff.2 hinj hl).symm
  · intro h
    rw [listing, listing, h]

/-- **A listing is faithful.** It tells the version, the source, the categories and all that it
shows of the commands, in order, and it has fourteen lines in front of the commands, eight for each
of them and four behind, whatever their texts are. -/
theorem listing_faithful (h₁ : r₁.provenance.OnOneLine) (h₂ : r₂.provenance.OnOneLine) :
    (r₁.listing = r₂.listing ↔
      r₁.provenance.version = r₂.provenance.version ∧
      r₁.provenance.sourceUrl = r₂.provenance.sourceUrl ∧
      r₁.categories = r₂.categories ∧
      r₁.commands.map Command.shown = r₂.commands.map Command.shown) ∧
    lines r₁.listing.toList =
      (r₁.listingHead ++ r₁.commands.flatMap Command.listing ++ r₁.listingTail).map
        String.toList ∧
    r₁.listingHead.length = 14 ∧ (∀ c : Command, c.listing.length = 8) ∧
    r₁.listingTail.length = 4 ∧
    (lines r₁.listing.toList).length = 14 + 8 * r₁.commands.length + 4 := by
  refine ⟨?_, lines_listing h₁, rfl, Command.length_listing, rfl, ?_⟩
  · rw [listing_inj h₁ h₂, listingLines_inj, listingHead_inj, Command.flatMap_listing_inj,
      listingTail_inj]
    tauto
  · rw [lines_listing h₁, List.length_map, listingLines, List.length_append, List.length_append,
      Command.length_flatMap_listing]
    rfl

/-- A registry of one command with some arguments. -/
def ofArguments (arguments : List Argument) : Registry where
  provenance := ⟨"2024-01-31", "source", "generator"⟩
  totalCommands := 1
  categories := [.set]
  commands := [⟨"set \"a\"\n", .set, arguments, none, "", false, true⟩]
  commandsByCategory := .empty
  nodePrefs := .empty

/-- An argument whose name is written like the end of one and the start of another. -/
def forged : Argument := ⟨"a\", \"type\": \"int\"\x7d, \x7b\"name\": \"b", .int⟩

/-- It is not listed like the two. -/
theorem listing_forged_argument :
    (ofArguments [forged]).listing ≠ (ofArguments [⟨"a", .int⟩, ⟨"b", .int⟩]).listing ∧
    (lines (ofArguments [forged]).listing.toList).length = 26 := by
  have hversion : '\n' ∉ "2024-01-31".toList := by decide
  have hsource : '\n' ∉ "source".toList := by decide
  have h : ∀ arguments, (ofArguments arguments).provenance.OnOneLine :=
    fun _ => ⟨hversion, hsource⟩
  obtain ⟨hiff, -, -, -, -, hlength⟩ :=
    listing_faithful (h [forged]) (h [⟨"a", .int⟩, ⟨"b", .int⟩])
  refine ⟨?_, hlength⟩
  intro he
  have hshown := (hiff.1 he).2.2.2
  exact absurd hshown (by decide)

end Registry

end CliParity
