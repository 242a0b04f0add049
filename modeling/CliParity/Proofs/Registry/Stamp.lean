import CliParity.Proofs.Registry.Listing
import CliParity.Proofs.Text.Lines

/-!
# How far the provenance of a listing reaches

A listing shows the version and the source in two comments behind its first line, as they are. The
lines of the two comments (`Provenance.stamp`) stand in the listing one for one, between its first
line and its code, which does not depend on them (`lines_listing_eq`). Two comments take two lines
unless a text holds a line feed, and each line feed moves the rest of its text to a line of its own,
where nothing makes it a comment. So two listings of the same commands are told apart by more than
the two comments unless what goes beyond two lines is alike (`confinedToStamp_iff`), and against a
listing with texts on one line exactly if a text is not on one line
(`confinedToStamp_iff_onOneLine`).
-/

set_option autoImplicit false

namespace CliParity

open Text

/-- What a comment starts with. -/
def commentMark : List Char := ['/', '/', ' ']

/-- Two lists of lines agree but on their second and third lines, and both have comments there. -/
structure ConfinedToStamp (ls ls' : List (List Char)) : Prop where
  elsewhere : ∀ i, i ≠ 1 → i ≠ 2 → ls[i]? = ls'[i]?
  comments : ∀ i ∈ [1, 2], (∃ l, ls[i]? = some l ∧ commentMark <+: l) ∧
    ∃ l', ls'[i]? = some l' ∧ commentMark <+: l'

namespace Provenance

variable {p : Provenance}

/-- The lines of the comments that show the version and the source. -/
def stamp (p : Provenance) : List (List Char) :=
  lines ("// Generated: " ++ p.version).toList ++ lines ("// Source: " ++ p.sourceUrl).toList

/-- What the comments take beyond two lines. -/
def overflow (p : Provenance) : List (List Char) := p.stamp.drop 2

/-- How many line feeds there are in the texts of the comments. -/
def lineFeeds (p : Provenance) : Nat :=
  p.version.toList.count '\n' + p.sourceUrl.toList.count '\n'

theorem lineFeeds_eq_zero_iff : p.lineFeeds = 0 ↔ p.OnOneLine := by
  rw [lineFeeds, OnOneLine, Nat.add_eq_zero_iff, List.count_eq_zero, List.count_eq_zero]

theorem length_stamp (p : Provenance) : p.stamp.length = 2 + p.lineFeeds := by
  have h : "// Generated: ".toList.count '\n' = 0 ∧ "// Source: ".toList.count '\n' = 0 := by
    decide
  rw [stamp, List.length_append, length_lines, length_lines, String.toList_append,
    String.toList_append, List.count_append, List.count_append, h.1, h.2, lineFeeds]
  omega

theorem overflow_eq_nil_iff : p.overflow = [] ↔ p.OnOneLine := by
  rw [overflow, List.drop_eq_nil_iff, length_stamp, ← lineFeeds_eq_zero_iff]
  omega

/-- The second line of the comments starts as a comment. -/
def SecondLineMarked (p : Provenance) : Prop := ∃ l, p.stamp[1]? = some l ∧ commentMark <+: l

theorem first_line_marked (p : Provenance) : ∃ l, p.stamp[0]? = some l ∧ commentMark <+: l := by
  have hmark : "// Generated: ".toList = commentMark ++ "Generated: ".toList := by decide
  have hfree : '\n' ∉ commentMark := by decide
  rw [stamp, String.toList_append, hmark, List.append_assoc, lines_append_of_not_mem hfree]
  cases h : lines ("Generated: ".toList ++ p.version.toList) with
  | nil => exact absurd h (lines_ne_nil _)
  | cons l ls => exact ⟨_, rfl, l, rfl⟩

/-- Comments whose texts are on one line are on a line each. -/
theorem stamp_of_onOneLine (h : p.OnOneLine) :
    p.stamp = [("// Generated: " ++ p.version).toList, ("// Source: " ++ p.sourceUrl).toList] := by
  rw [stamp, lines_of_not_mem (by simp [h.1]), lines_of_not_mem (by simp [h.2])]
  rfl

theorem secondLineMarked_of_onOneLine (h : p.OnOneLine) : p.SecondLineMarked := by
  rw [SecondLineMarked, stamp_of_onOneLine h]
  exact ⟨_, rfl, ("Source: " ++ p.sourceUrl).toList, by simp [commentMark]⟩

end Provenance

namespace Registry

variable {r r₁ r₂ : Registry}

/-! ## The lines around the comments -/

/-- The lines of a listing behind the comments on its provenance. -/
def codeLines (r : Registry) : List String :=
  r.listingHead.drop 3 ++ (r.commands.flatMap Command.listing ++ r.listingTail)

theorem codeLines_congr (hc : r₁.commands = r₂.commands) (hk : r₁.categories = r₂.categories) :
    r₁.codeLines = r₂.codeLines := by
  simp only [codeLines, listingHead, List.drop_succ_cons, List.drop_zero, listingTail, hc, hk]

theorem newline_not_mem_codeLines (r : Registry) : ∀ line ∈ r.codeLines, '\n' ∉ line.toList := by
  have hhead : ∀ line ∈ r.listingHead.drop 3, '\n' ∉ line.toList := by
    simp [listingHead]
  intro line hline
  rcases List.mem_append.1 hline with hline | hline
  · exact hhead line hline
  · exact r.newline_not_mem_listingRest line hline

theorem length_codeLines (r : Registry) : r.codeLines.length = 11 + 8 * r.commands.length + 4 := by
  rw [codeLines, List.length_append, List.length_append, Command.length_flatMap_listing]
  rfl

/-- The first line of a listing. -/
def titleLine : List Char := "// Auto-generated from MeshCore CommonCLI.cpp".toList

/-- The comments stand between the first line and the code with all their lines. -/
theorem lines_listing_eq (r : Registry) : lines r.listing.toList =
    titleLine :: (r.provenance.stamp ++ r.codeLines.map String.toList) := by
  have hsep : "\n".toList = ['\n'] := rfl
  have hparts : r.listingLines.map String.toList =
      titleLine :: ("// Generated: " ++ r.provenance.version).toList ::
        ("// Source: " ++ r.provenance.sourceUrl).toList :: r.codeLines.map String.toList := rfl
  have htitle : lines titleLine = [titleLine] := lines_of_not_mem (by decide)
  have hcode : (r.codeLines.map String.toList).flatMap lines = r.codeLines.map String.toList := by
    apply flatMap_lines_of_not_mem
    intro l hl
    obtain ⟨line, hline, rfl⟩ := List.mem_map.1 hl
    exact r.newline_not_mem_codeLines line hline
  rw [listing, String.toList_intercalate, hsep, hparts, lines_intercalate (by simp),
    List.flatMap_cons, List.flatMap_cons, List.flatMap_cons, htitle, hcode, Provenance.stamp,
    List.append_assoc]
  rfl

/-! ## The reach of the comments -/

/-- Agreement on all lines but the second and third is that of the first lines and of what comes
behind the third ones. -/
theorem elsewhere_iff {ls ls' : List (List Char)} :
    (∀ i, i ≠ 1 → i ≠ 2 → ls[i]? = ls'[i]?) ↔ ls[0]? = ls'[0]? ∧ ls.drop 3 = ls'.drop 3 := by
  constructor
  · intro h
    refine ⟨h 0 (by omega) (by omega), List.ext_getElem? fun i => ?_⟩
    rw [List.getElem?_drop, List.getElem?_drop]
    exact h (3 + i) (by omega) (by omega)
  · rintro ⟨hfirst, hrest⟩ i h₁ h₂
    match i, h₁, h₂ with
    | 0, _, _ => exact hfirst
    | i + 3, _, _ =>
      rw [Nat.add_comm, ← List.getElem?_drop, hrest, List.getElem?_drop]

theorem drop_lines_listing (r : Registry) : (lines r.listing.toList).drop 3 =
    r.provenance.overflow ++ r.codeLines.map String.toList := by
  rw [lines_listing_eq, List.drop_succ_cons, Provenance.overflow, List.drop_append_of_le_length]
  rw [Provenance.length_stamp]
  omega

theorem comments_lines_listing_iff (r : Registry) :
    (∀ i ∈ [1, 2], ∃ l, (lines r.listing.toList)[i]? = some l ∧ commentMark <+: l) ↔
      r.provenance.SecondLineMarked := by
  have hlength := r.provenance.length_stamp
  have hfirst := r.provenance.first_line_marked
  have hat : ∀ i < 2, (lines r.listing.toList)[i + 1]? = r.provenance.stamp[i]? := by
    intro i hi
    rw [lines_listing_eq, List.getElem?_cons_succ, List.getElem?_append_left (by omega)]
  rw [Provenance.SecondLineMarked, ← hat 1 (by omega)]
  rw [← hat 0 (by omega)] at hfirst
  constructor
  · exact fun h => h 2 (by simp)
  · intro h i hi
    rcases List.mem_pair.1 hi with rfl | rfl
    · exact hfirst
    · exact h

theorem confinedToStamp_iff (hc : r₁.commands = r₂.commands)
    (hk : r₁.categories = r₂.categories) :
    ConfinedToStamp (lines r₁.listing.toList) (lines r₂.listing.toList) ↔
      r₁.provenance.overflow = r₂.provenance.overflow ∧
        r₁.provenance.SecondLineMarked ∧ r₂.provenance.SecondLineMarked := by
  have helsewhere : (∀ i, i ≠ 1 → i ≠ 2 →
      (lines r₁.listing.toList)[i]? = (lines r₂.listing.toList)[i]?) ↔
      r₁.provenance.overflow = r₂.provenance.overflow := by
    rw [elsewhere_iff, drop_lines_listing, drop_lines_listing, codeLines_congr hc hk,
      List.append_cancel_right_eq, lines_listing_eq, lines_listing_eq]
    simp
  rw [← comments_lines_listing_iff r₁, ← comments_lines_listing_iff r₂, ← helsewhere]
  constructor
  · rintro ⟨he, hcomments⟩
    exact ⟨he, fun i hi => (hcomments i hi).1, fun i hi => (hcomments i hi).2⟩
  · rintro ⟨he, h₁, h₂⟩
    exact ⟨he, fun i hi => ⟨h₁ i hi, h₂ i hi⟩⟩

/-- **The provenance reaches beyond its comments exactly through line feeds.** Two listings of the
same commands and categories differ at most on the second and third line, which are comments in
both, exactly if what their comments take beyond two lines is alike and the second lines of the
comments start as comments. Next to a listing whose version and source are on one line that is so
exactly if those of the other are, too. Each line feed in a version or source makes a line more. -/
theorem confinedToStamp_iff_onOneLine (hc : r₁.commands = r₂.commands)
    (hk : r₁.categories = r₂.categories) :
    (ConfinedToStamp (lines r₁.listing.toList) (lines r₂.listing.toList) ↔
      r₁.provenance.overflow = r₂.provenance.overflow ∧
        r₁.provenance.SecondLineMarked ∧ r₂.provenance.SecondLineMarked) ∧
    (r₂.provenance.OnOneLine →
      (ConfinedToStamp (lines r₁.listing.toList) (lines r₂.listing.toList) ↔
        r₁.provenance.OnOneLine)) ∧
    (lines r₁.listing.toList).length =
      14 + 8 * r₁.commands.length + 4 + r₁.provenance.lineFeeds := by
  refine ⟨confinedToStamp_iff hc hk, fun h₂ => ?_, ?_⟩
  · rw [confinedToStamp_iff hc hk, Provenance.overflow_eq_nil_iff.2 h₂,
      Provenance.overflow_eq_nil_iff]
    constructor
    · exact fun h => h.1
    · exact fun h₁ => ⟨h₁, Provenance.secondLineMarked_of_onOneLine h₁,
        Provenance.secondLineMarked_of_onOneLine h₂⟩
  · rw [lines_listing_eq, List.length_cons, List.length_append, List.length_map,
      Provenance.length_stamp, length_codeLines]
    omega

/-- A registry without commands, from some source. -/
def ofSource (sourceUrl : String) : Registry :=
  assemble [] .empty ⟨"2024-01-31", sourceUrl, "generator"⟩

/-- The rest of a source with a line feed is a line of code. -/
theorem source_adds_code :
    ¬ ConfinedToStamp (lines (ofSource "u\nexport const x = 1;").listing.toList)
      (lines (ofSource "u").listing.toList) ∧
    (lines (ofSource "u\nexport const x = 1;").listing.toList)[3]? =
      some "export const x = 1;".toList ∧
    (lines (ofSource "u\nexport const x = 1;").listing.toList).length = 19 := by
  have hc : (ofSource "u\nexport const x = 1;").commands = (ofSource "u").commands := rfl
  obtain ⟨-, hiff, hlength⟩ := confinedToStamp_iff_onOneLine hc rfl
  have h₂ : (ofSource "u").provenance.OnOneLine := by
    unfold Provenance.OnOneLine
    decide
  have h₁ : ¬ (ofSource "u\nexport const x = 1;").provenance.OnOneLine := by
    unfold Provenance.OnOneLine
    decide
  refine ⟨fun h => h₁ ((hiff h₂).1 h), ?_, hlength.trans (by decide +kernel)⟩
  rw [lines_listing_eq]
  decide

end Registry

end CliParity
