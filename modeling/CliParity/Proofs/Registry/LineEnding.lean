import CliParity.Proofs.Dispatcher.LineEnding
import CliParity.Proofs.Preferences.LineEnding
import CliParity.Registry.Basic

/-!
# Line endings and the registry

A registry is built from the commands of a dispatcher and the fields of a struct, so it is the same
with either line ending wherever these are (`assemble_crlf`).
-/

set_option autoImplicit false

namespace CliParity.Registry

open Text Dispatcher

/-- **Line endings do not matter to the registry**, unless the name that the struct is looked for by
ends in a carriage return: the name is matched as it is, and then some header has the struct with
one line ending only. -/
theorem assemble_crlf {structName : String} (hn : '\n' ∉ structName.toList) :
    (∀ settings source, extract settings (crlf source) = extract settings source) ∧
    ((∀ header, layout structName (crlf header) = layout structName header) ↔
      structName.toList.getLast? ≠ some '\r') ∧
    ((∀ settings source header provenance,
      assemble (extract settings (crlf source)) (layout structName (crlf header)) provenance =
        assemble (extract settings source) (layout structName header) provenance) ↔
      structName.toList.getLast? ≠ some '\r') := by
  refine ⟨extract_crlf, layout_crlf_iff hn, ?_⟩
  rw [← layout_crlf_iff hn]
  constructor
  · intro h header
    exact congrArg nodePrefs (h .meshCore "" header ⟨"", "", ""⟩)
  · intro h settings source header provenance
    rw [extract_crlf, h]

/-- The struct of a header whose lines end in two characters. -/
theorem layout_of_crlf_header :
    layout "A" (crlf "struct A\n\x7b\nint\nx;\n\x7d") = layout "A" "struct A\n\x7b\nint\nx;\n\x7d" ∧
    (layout "A" "struct A\n\x7b\nint\nx;\n\x7d").entries = [("x", ⟨.int, none⟩)] := by
  have hn : '\n' ∉ "A".toList := by decide
  have hr : "A".toList.getLast? ≠ some '\r' := by decide
  exact ⟨(assemble_crlf hn).2.1.2 hr _, by decide +kernel⟩

/-- A name that ends in a carriage return names a struct with one line ending only. -/
theorem name_in_return :
    '\n' ∉ "A\r".toList ∧
    layout "A\r" (crlf "struct A\n\x7bint x;\x7d") ≠ layout "A\r" "struct A\n\x7bint x;\x7d" :=
  ⟨by decide, by decide +kernel⟩

end CliParity.Registry
