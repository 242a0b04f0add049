import CliParity.CommandLine.PatchTool
import CliParity.Proofs.Patch.Compatibility
import CliParity.Proofs.Patch.Target

/-!
# Checking and patching from the command line

Every path can be given as the operand (`operandArguments`), and the program then checks or patches
what it leads to (`run_check_operand`, `run_operand`), unless the path is empty, which is no operand
and no place of a file. A check succeeds where patching finds nothing to do
(`check_agrees_with_patching`).
-/

set_option autoImplicit false

namespace CliParity.CommandLine.PatchTool

open CliParity.Tree CliParity.Patch

variable {t : Tree} {p : Path} {given : List (String × String)}

/-! ## Operands -/

/-- The arguments that give a path as the operand. One that is written as an option stands behind
two dashes. -/
def operandArguments (p : Path) : List String :=
  if Progress.isOption p.text.toList then ["--", p.text] else [p.text]

theorem take_path {only : Bool} (h : only = true ∨ Progress.isOption p.text.toList = false) :
    Progress.take interface ⟨given, [], none, only⟩ p.text =
      Progress.addOperand ⟨given, [], none, only⟩ interface p.text := by
  unfold Progress.take
  cases only with
  | true => rfl
  | false =>
    rcases h with h | h
    · cases h
    · rw [h]
      rfl

theorem addOperand_path (only : Bool) (hp : p.text ≠ "") :
    Progress.addOperand ⟨given, [], none, only⟩ interface p.text =
      .ok ⟨given, [p.text], none, only⟩ := by
  simp [Progress.addOperand, interface, Value.accepts, hp]

/-- A path is taken as the operand, whatever it looks like. -/
theorem take_operandArguments (given : List (String × String)) (hp : p.text ≠ "") :
    ∃ only, (operandArguments p).foldlM (Progress.take interface) ⟨given, [], none, false⟩ =
      .ok ⟨given, [p.text], none, only⟩ := by
  unfold operandArguments
  by_cases ho : Progress.isOption p.text.toList = true
  · refine ⟨true, ?_⟩
    have hdashes : Progress.take interface ⟨given, [], none, false⟩ "--" =
        .ok ⟨given, [], none, true⟩ := rfl
    rw [if_pos ho, List.foldlM_cons, hdashes]
    change [p.text].foldlM (Progress.take interface) _ = _
    rw [List.foldlM_cons, take_path (.inl rfl), addOperand_path _ hp]
    rfl
  · refine ⟨false, ?_⟩
    have ho' : Progress.isOption p.text.toList = false := by simpa using ho
    rw [if_neg ho, List.foldlM_cons, take_path (.inr ho'), addOperand_path _ hp]
    rfl

/-- The program patches the operand. -/
theorem run_operand (hp : p.text ≠ "") :
    (run (operandArguments p) : StateM Tree Exit) = change p := by
  obtain ⟨only, h⟩ := take_operandArguments [] hp
  have hread : interface.read (operandArguments p) = .ok ⟨[], [p.text], none, only⟩ := by
    unfold Interface.read Progress.start
    rw [h]
    rfl
  unfold run
  rw [hread]
  rfl

/-- With `--check` it checks the operand. -/
theorem run_check_operand (hp : p.text ≠ "") :
    (run ("--check" :: operandArguments p) : StateM Tree Exit) = check p := by
  have hflag : Progress.take interface .start "--check" = .ok ⟨[("check", "")], [], none, false⟩ :=
    rfl
  obtain ⟨only, h⟩ := take_operandArguments [("check", "")] hp
  have hread : interface.read ("--check" :: operandArguments p) =
      .ok ⟨[("check", "")], [p.text], none, only⟩ := by
    unfold Interface.read
    rw [List.foldlM_cons, hflag]
    change Except.bind ((operandArguments p).foldlM (Progress.take interface) _) _ = _
    rw [h]
    rfl
  unfold run
  rw [hread]
  rfl

/-- The empty path is no operand. -/
theorem run_empty (hp : p.text = "") :
    (run (operandArguments p) : StateM Tree Exit) =
        pure (interface.stopped (.usage (.valueInvalid "PATH" ""))) ∧
      (run ("--check" :: operandArguments p) : StateM Tree Exit) =
        pure (interface.stopped (.usage (.valueInvalid "PATH" ""))) := by
  obtain ⟨text⟩ := p
  subst hp
  exact ⟨rfl, rfl⟩

/-! ## Answers -/

theorem code_failed (e : TargetError) : (failed e).code = 1 := by
  cases e <;> rfl

theorem patched_ne_unchanged (p : Path) (applied : List String) :
    (patched p applied).output ≠ (unchanged p).output := by
  intro h
  have hl := congrArg String.toList h
  simp [patched, unchanged, Exit.success] at hl

theorem code_check_eq_zero_iff (p : Path) (t : Tree) :
    ((check p : StateM Tree Exit).run t).1.code = 0 ↔
      ((pending p : StateM Tree _).run t).1 = .ok [] := by
  rw [check, run_bind, run_pending]
  cases targetText t p with
  | error e =>
    change (failed e).code = 0 ↔ Except.error e = Except.ok []
    simp [code_failed]
  | ok text =>
    rw [Except.map]
    generalize (applyAll catalogue text.toList).applied = names
    change (if names.isEmpty then unchanged p else lacking p names).code = 0 ↔ _
    cases names with
    | nil => simp [unchanged, Exit.success]
    | cons name rest => simp [lacking, Exit.refusal]

theorem tree_check (p : Path) (t : Tree) : ((check p : StateM Tree Exit).run t).2 = t := by
  rw [check, run_bind, run_pending]
  cases targetText t p <;> rfl

theorem tree_change (p : Path) (t : Tree) :
    ((change p : StateM Tree Exit).run t).2 = ((patchFile p : StateM Tree _).run t).2 := by
  rw [change, run_bind]
  split <;> rfl

theorem change_unchanged_iff (p : Path) (t : Tree) :
    (((change p : StateM Tree Exit).run t).1.code = 0 ∧
      ((change p : StateM Tree Exit).run t).1.output = (unchanged p).output) ↔
      ((patchFile p : StateM Tree _).run t).1 = .ok .unchanged := by
  rw [change, run_bind]
  cases ((patchFile p : StateM Tree _).run t).1 with
  | error e =>
    change ((failed e).code = 0 ∧ _) ↔ _
    simp [code_failed]
  | ok report =>
    cases report with
    | unchanged => exact iff_of_true ⟨rfl, rfl⟩ rfl
    | patched applied =>
      refine iff_of_false ?_ ?_
      · rintro ⟨-, h⟩
        exact patched_ne_unchanged p applied h
      · intro h
        cases h

/-! ## Runs of the program -/

theorem isPresent_empty (hp : p.text = "") (t : Tree) : t.isPresent p = false := by
  unfold isPresent find
  cases h : t.locate p with
  | error e => rfl
  | ok here =>
    obtain ⟨-, hne, -⟩ := locate_eq_ok_iff.1 h
    exact absurd hp hne

theorem pending_empty (hp : p.text = "") (t : Tree) :
    ((pending p : StateM Tree _).run t).1 = .error (.notFound p) := by
  apply (pending_eq_error_iff p t _).2
  exact .inl ⟨isPresent_empty hp t, rfl⟩

theorem patchFile_empty (hp : p.text = "") (t : Tree) :
    ((patchFile p : StateM Tree _).run t).1 = .error (.notFound p) :=
  (patchFile_eq_error_iff p t _).2 (pending_empty hp t)

theorem tree_run_check (p : Path) (t : Tree) :
    ((run ("--check" :: operandArguments p) : StateM Tree Exit).run t).2 = t := by
  by_cases hp : p.text = ""
  · rw [(run_empty hp).2]
    rfl
  · rw [run_check_operand hp, tree_check]

/-- The program leaves the tree that patching leaves. -/
theorem tree_run (p : Path) (t : Tree) :
    ((run (operandArguments p) : StateM Tree Exit).run t).2 =
      ((patchFile p : StateM Tree _).run t).2 := by
  by_cases hp : p.text = ""
  · rw [(run_empty hp).1, tree_patchFile_of_ne]
    · rfl
    · intro applied h
      rw [patchFile_empty hp t] at h
      cases h
  · rw [run_operand hp, tree_change]

theorem code_run_check_eq_zero_iff (p : Path) (t : Tree) :
    ((run ("--check" :: operandArguments p) : StateM Tree Exit).run t).1.code = 0 ↔
      ((pending p : StateM Tree _).run t).1 = .ok [] := by
  by_cases hp : p.text = ""
  · rw [(run_empty hp).2, pending_empty hp t]
    exact iff_of_false (fun h => by cases h) (fun h => by cases h)
  · rw [run_check_operand hp, code_check_eq_zero_iff]

theorem run_unchanged_iff (p : Path) (t : Tree) :
    (((run (operandArguments p) : StateM Tree Exit).run t).1.code = 0 ∧
      ((run (operandArguments p) : StateM Tree Exit).run t).1.output = (unchanged p).output) ↔
      ((patchFile p : StateM Tree _).run t).1 = .ok .unchanged := by
  by_cases hp : p.text = ""
  · rw [(run_empty hp).1, patchFile_empty hp t]
    exact iff_of_false (fun h => by cases h.1) (fun h => by cases h)
  · rw [run_operand hp, change_unchanged_iff]

/-! ## Agreement -/

/-- **Checking, asking what is pending and patching agree.** Patching applies what is pending, in
the file at the end of the path and nowhere else. It fails where asking fails, with the same error:
the path leads to nothing, or to what is no text. A file that lacks no patch is left as it is, and
so is the tree where patching fails. The program with `--check` writes nothing, and it succeeds if
and only if without the option it would succeed and say that no changes are needed.

That patching fails only where asking does is so in trees: a file that was read can be written over
there (`write_of_find`), and no run ends in `TargetError.unwritable`. -/
theorem check_agrees_with_patching (t : Tree) (p : Path) :
    ((pending p : StateM Tree _).run t).2 = t ∧
    (∀ applied, ((patchFile p : StateM Tree _).run t).1 = .ok (.patched applied) ↔
      ((pending p : StateM Tree _).run t).1 = .ok applied ∧ applied ≠ []) ∧
    (∀ applied, ((pending p : StateM Tree _).run t).1 = .ok applied ↔
      ∃ text, t.readText p = .ok text ∧ (applyAll catalogue text.toList).applied = applied) ∧
    (∀ applied, ((patchFile p : StateM Tree _).run t).1 = .ok (.patched applied) →
      ∃ text, t.readText p = .ok text ∧
        ((patchFile p : StateM Tree _).run t).2.readText p =
          .ok (String.ofList (applyAll catalogue text.toList).content) ∧
        OnlyAt p t ((patchFile p : StateM Tree _).run t).2) ∧
    (((patchFile p : StateM Tree _).run t).1 = .ok .unchanged ↔
      ((pending p : StateM Tree _).run t).1 = .ok []) ∧
    (∀ e, ((patchFile p : StateM Tree _).run t).1 = .error e ↔
      ((pending p : StateM Tree _).run t).1 = .error e) ∧
    (∀ e, ((pending p : StateM Tree _).run t).1 = .error e ↔
      (t.isPresent p = false ∧ e = .notFound p) ∨
      (t.isPresent p = true ∧ ∃ cause, t.readText p = .error cause ∧ e = .unreadable p cause)) ∧
    ((∀ applied, ((patchFile p : StateM Tree _).run t).1 ≠ .ok (.patched applied)) →
      ((patchFile p : StateM Tree _).run t).2 = t) ∧
    ((run ("--check" :: operandArguments p) : StateM Tree Exit).run t).2 = t ∧
    ((run (operandArguments p) : StateM Tree Exit).run t).2 =
      ((patchFile p : StateM Tree _).run t).2 ∧
    (((run ("--check" :: operandArguments p) : StateM Tree Exit).run t).1.code = 0 ↔
      ((pending p : StateM Tree _).run t).1 = .ok []) ∧
    (((run ("--check" :: operandArguments p) : StateM Tree Exit).run t).1.code = 0 ↔
      ((run (operandArguments p) : StateM Tree Exit).run t).1.code = 0 ∧
      ((run (operandArguments p) : StateM Tree Exit).run t).1.output =
        "○ No changes needed for " ++ p.text ++ "\n") := by
  refine ⟨?_, patchFile_eq_patched_iff p t, pending_eq_ok_iff p t, ?_,
    patchFile_eq_unchanged_iff p t, patchFile_eq_error_iff p t, pending_eq_error_iff p t,
    tree_patchFile_of_ne, tree_run_check p t, tree_run p t, code_run_check_eq_zero_iff p t, ?_⟩
  · rw [run_pending]
  · intro applied h
    exact onlyAt_of_patched h
  · rw [code_run_check_eq_zero_iff, ← patchFile_eq_unchanged_iff, ← run_unchanged_iff]
    exact Iff.rfl

/-- A text that lacks one patch. -/
def unpatchedText : String := "import time\n\nlogger = "

/-- A tree whose only file holds it. -/
def unpatched : Tree := empty.put ["m.py"] (.file unpatchedText.toUTF8)

theorem applied_unpatchedText :
    (applyAll catalogue unpatchedText.toList).applied = ["imports"] := by
  rw [catalogue_eq, spelledImports.2, spelledInner.2, spelledStatsMethods.2]
  decide +kernel

/-- One patch is pending and is applied, and a check fails. Where the file is missing, nothing
happens. -/
theorem imports_pending :
    ((patchFile ⟨"m.py"⟩ : StateM Tree _).run unpatched).1 = .ok (.patched ["imports"]) ∧
    OnlyAt ⟨"m.py"⟩ unpatched ((patchFile ⟨"m.py"⟩ : StateM Tree _).run unpatched).2 ∧
    ((run ["--check", "m.py"] : StateM Tree Exit).run unpatched).1.code ≠ 0 ∧
    ((patchFile ⟨"m.py"⟩ : StateM Tree _).run empty).2 = empty := by
  have hread : unpatched.readText ⟨"m.py"⟩ = .ok unpatchedText := readText_of_find rfl
  obtain ⟨-, hpatched, hpending, honly, -, -, -, -, -, -, hcode, -⟩ :=
    check_agrees_with_patching unpatched ⟨"m.py"⟩
  have hnames := (hpending ["imports"]).2 ⟨unpatchedText, hread, applied_unpatchedText⟩
  have hreport := (hpatched ["imports"]).2 ⟨hnames, List.cons_ne_nil "imports" []⟩
  obtain ⟨-, -, -, hat⟩ := honly _ hreport
  refine ⟨hreport, hat, ?_, ?_⟩
  · intro h
    have hnone := (hcode.1 h).symm.trans hnames
    simp at hnone
  · obtain ⟨-, -, -, -, -, herror, hmissing, hkept, -⟩ :=
      check_agrees_with_patching empty ⟨"m.py"⟩
    have hnotFound := (herror _).2 ((hmissing _).2 (.inl ⟨rfl, rfl⟩))
    apply hkept
    intro applied h
    rw [hnotFound] at h
    cases h

end CliParity.CommandLine.PatchTool
