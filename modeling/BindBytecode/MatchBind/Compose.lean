import BindBytecode.MatchBind.Acceptance

/-!
# MatchBind/Compose: how runs of the matcher compose

`match_bind` reads its stream once, front to back, and carries nothing from one pass to the next
but the iterator.  Two consequences follow from the run decomposition of `Acceptance`
(`matchBind_run`: an accepted prefix, then the pass that ends the run).

APPENDING BYTES.  Whatever the matcher answers on a stream it answers on every extension of the
stream, with one exception: a run that ran out of bytes in the middle of an operand
(`UnexpectedEnd`) may be completed by what follows.  An `Ok(true)` hands over to the appended
bytes (`matchBind_append`).  This is a statement about every stream, well formed or not; the
encoded programs of the tests are one case of it.

REORDERING A PROGRAM.  On a well-formed program none of whose comparisons errs, the verdict
depends only on which instructions the program contains: reordering, repeating or dropping
repeated instructions changes nothing (`matchBind_encode_of_mem_iff`).  The hypothesis is needed:
with an abort and a condition that compares values of different variants, the order decides
whether the run answers `Ok(false)` or `Err(MismatchValueTypes)`
(`matchBind_encode_order_matters_of_mismatch`).
-/

set_option autoImplicit false

namespace BindBytecode

namespace MatchBind

variable {K : BindProgramV2Constants} {symbolTable : SymbolTable} {properties : DeviceProperties}

/-! ## Appending bytes -/

/-- An operand error other than a truncation lies within the bytes it names. -/
theorem OperandError.append {it : BytecodeIter} {e : BytecodeError}
    (he : OperandError K symbolTable it e) (hne : e ≠ .unexpectedEnd) (tail : BytecodeIter) :
    OperandError K symbolTable (it ++ tail) e := by
  cases he with
  | emptyStream | truncatedValue => exact absurd rfl hne
  | invalidValueType b rest hb => exact .invalidValueType b (rest ++ tail) hb
  | missingEntry t ht w rest hw =>
    rw [List.cons_append, List.append_assoc]
    exact .missingEntry t ht w (rest ++ tail) hw
  | invalidBool w rest hw =>
    rw [List.cons_append, List.append_assoc]
    exact .invalidBool w (rest ++ tail) hw

/-- A pass that fails otherwise than by truncation fails the same way whatever follows. -/
theorem PassError.append {it : BytecodeIter} {e : BytecodeError}
    (he : PassError K symbolTable properties it e) (hne : e ≠ .unexpectedEnd)
    (tail : BytecodeIter) : PassError K symbolTable properties (it ++ tail) e := by
  cases he with
  | invalidOp b rest hb => exact .invalidOp b (rest ++ tail) hb
  | keyOperand c rest e he => exact .keyOperand c (rest ++ tail) e (he.append hne tail)
  | valueOperand c k hk rest e he =>
    rw [List.cons_append, List.append_assoc]
    exact .valueOperand c k hk (rest ++ tail) e (he.append hne tail)
  | mismatch c k v rest hwf d hd hdisc =>
    rw [List.append_assoc]
    exact .mismatch c k v (rest ++ tail) hwf d hd hdisc

variable (K)

/-- Appending bytes to a stream keeps the matcher's answer, unless the stream was cut short in
the middle of an operand: `Ok(false)`, every other error and the `unimplemented!` panic are
reached within the stream, and `Ok(true)` hands over to the appended bytes. -/
theorem matchBind_append (bytecode tail : List UInt8) (symbolTable : SymbolTable)
    (properties : DeviceProperties)
    (h : (DeviceMatcher.new ⟨symbolTable, bytecode⟩ properties).matchBind K ≠
      .error (.err .unexpectedEnd)) :
    (DeviceMatcher.new ⟨symbolTable, bytecode ++ tail⟩ properties).matchBind K =
      match (DeviceMatcher.new ⟨symbolTable, bytecode⟩ properties).matchBind K with
      | .ok true => (DeviceMatcher.new ⟨symbolTable, tail⟩ properties).matchBind K
      | r => r := by
  generalize hr : (DeviceMatcher.new ⟨symbolTable, bytecode⟩ properties).matchBind K = r at h ⊢
  obtain ⟨program, it, rfl, hacc, hend⟩ := matchBind_run bytecode hr
  rw [DeviceMatcher.new, List.append_assoc, matchBind_accepted_append hacc]
  cases hend with
  | exhausted => rfl
  | noMatch i rest hi hout => rw [List.append_assoc, matchBind_encode_cons hi, hout]
  | error it e he =>
    rw [matchBind_passError (he.append (fun hu => h (by rw [hu])) tail)]
  | keyPanic c o rest ho =>
    rw [List.cons_append, List.append_assoc, matchBind_condition (c.fromU8_toRawOp K),
      readAndEvaluateValues_boolOrEnum K c ho]

/-- An unconditional abort answers no, and so does the abort followed by anything. -/
theorem matchBind_append_abort :
    (DeviceMatcher.new ⟨fun _ => none, [0x30]⟩ fun _ => none).matchBind sampleConstants ≠
        .error (.err .unexpectedEnd) ∧
      (DeviceMatcher.new ⟨fun _ => none, [0x30] ++ [0xFF]⟩ fun _ => none).matchBind
          sampleConstants =
        match (DeviceMatcher.new ⟨fun _ => none, [0x30]⟩ fun _ => none).matchBind
            sampleConstants with
        | .ok true => (DeviceMatcher.new ⟨fun _ => none, [0xFF]⟩ fun _ => none).matchBind
            sampleConstants
        | r => r := by
  have habort : (DeviceMatcher.new ⟨fun _ => none, [0x30]⟩ fun _ => none).matchBind
      sampleConstants = .ok false :=
    matchBind_abort (@RawOp.fromU8_toU8 sampleConstants .abort fun _ h => by cases h)
  refine ⟨?hne, matchBind_append _ _ _ _ _ ?hne⟩
  rw [habort]
  exact fun h => nomatch h

/-! ## Reordering a program -/

variable {K}

/-- A well-formed program whose instructions all continue is passed over. -/
theorem matchBind_encode_of_forall_ok {program : List Instr}
    (hwf : ∀ i ∈ program, i.WellFormed K symbolTable)
    (hok : ∀ i ∈ program, i.outcome symbolTable properties = .ok true) :
    (⟨properties, symbolTable, encode K program⟩ : DeviceMatcher).matchBind K = .ok true := by
  have hacc : Accepted K symbolTable properties program := fun i hi =>
    have h := Instr.outcome_eq_ok_true.1 (hok i hi)
    ⟨h.1, hwf i hi, h.2⟩
  rw [← List.append_nil (encode K program), matchBind_accepted_append hacc, matchBind_nil]

/-- A well-formed program with no erring comparison and an instruction that stops the run
answers no. -/
theorem matchBind_encode_of_mem_ok_false {program : List Instr}
    (hwf : ∀ i ∈ program, i.WellFormed K symbolTable)
    (hnoerr : ∀ i ∈ program, ∀ e, i.outcome symbolTable properties ≠ .error e) {i : Instr}
    (hi : i ∈ program) (hout : i.outcome symbolTable properties = .ok false) :
    (⟨properties, symbolTable, encode K program⟩ : DeviceMatcher).matchBind K = .ok false := by
  induction program with
  | nil => cases hi
  | cons j program ih =>
    rw [encode_cons, matchBind_encode_cons (hwf j (List.mem_cons_self j program))]
    rcases hj : j.outcome symbolTable properties with e | ⟨⟩ | ⟨⟩
    · exact absurd hj (hnoerr j (List.mem_cons_self j program) e)
    · rfl
    · refine ih (fun k hk => hwf k (List.mem_cons_of_mem j hk))
        (fun k hk => hnoerr k (List.mem_cons_of_mem j hk)) ?_
      rcases List.mem_cons.1 hi with rfl | hi
      · rw [hj] at hout
        cases hout
      · exact hi

variable (K)

/-- The verdict of a well-formed program none of whose comparisons errs depends only on which
instructions it contains: reordering the program, repeating an instruction or dropping a repeat
gives the same answer. -/
theorem matchBind_encode_of_mem_iff (program program' : List Instr) (symbolTable : SymbolTable)
    (properties : DeviceProperties) (hmem : ∀ i, i ∈ program ↔ i ∈ program')
    (hwf : ∀ i ∈ program, i.WellFormed K symbolTable)
    (hnoerr : ∀ i ∈ program, ∀ e, i.outcome symbolTable properties ≠ .error e) :
    (DeviceMatcher.new ⟨symbolTable, encode K program⟩ properties).matchBind K =
      (DeviceMatcher.new ⟨symbolTable, encode K program'⟩ properties).matchBind K := by
  have hwf' : ∀ i ∈ program', i.WellFormed K symbolTable := fun i hi => hwf i ((hmem i).2 hi)
  have hnoerr' : ∀ i ∈ program', ∀ e, i.outcome symbolTable properties ≠ .error e :=
    fun i hi => hnoerr i ((hmem i).2 hi)
  by_cases hall : ∀ i ∈ program, i.outcome symbolTable properties = .ok true
  · rw [DeviceMatcher.new, DeviceMatcher.new, matchBind_encode_of_forall_ok hwf hall,
      matchBind_encode_of_forall_ok hwf' fun i hi => hall i ((hmem i).2 hi)]
  · obtain ⟨i, hi, hne⟩ : ∃ i ∈ program, i.outcome symbolTable properties ≠ .ok true := by
      simpa only [not_forall, exists_prop] using hall
    have hfalse : i.outcome symbolTable properties = .ok false := by
      rcases h : i.outcome symbolTable properties with e | ⟨⟩ | ⟨⟩
      · exact absurd h (hnoerr i hi e)
      · rfl
      · exact absurd h hne
    rw [DeviceMatcher.new, DeviceMatcher.new, matchBind_encode_of_mem_ok_false hwf hnoerr hi hfalse,
      matchBind_encode_of_mem_ok_false hwf' hnoerr' ((hmem i).1 hi) hfalse]

/-- Two conditions of the test `no_match_with_multiple_condition_statements`, in either order. -/
theorem matchBind_encode_of_mem_iff_swap :
    (∀ i, i ∈ [Instr.cond .equal (.number 10) (.number 2000),
        .cond .inequal (.number 2) (.number 500)] ↔
      i ∈ [Instr.cond .inequal (.number 2) (.number 500),
        .cond .equal (.number 10) (.number 2000)]) ∧
    (∀ i ∈ [Instr.cond .equal (.number 10) (.number 2000),
        .cond .inequal (.number 2) (.number 500)], i.WellFormed sampleConstants fun _ => none) ∧
    (∀ i ∈ [Instr.cond .equal (.number 10) (.number 2000),
        .cond .inequal (.number 2) (.number 500)], ∀ e,
      i.outcome (fun _ => none) (fun _ => some (.numberValue 500)) ≠ .error e) ∧
    (DeviceMatcher.new ⟨fun _ => none, encode sampleConstants
        [.cond .equal (.number 10) (.number 2000), .cond .inequal (.number 2) (.number 500)]⟩
      fun _ => some (.numberValue 500)).matchBind sampleConstants =
    (DeviceMatcher.new ⟨fun _ => none, encode sampleConstants
        [.cond .inequal (.number 2) (.number 500), .cond .equal (.number 10) (.number 2000)]⟩
      fun _ => some (.numberValue 500)).matchBind sampleConstants := by
  refine ⟨?hmem, ?hwf, ?hnoerr, matchBind_encode_of_mem_iff _ _ _ _ _ ?hmem ?hwf ?hnoerr⟩
  case hmem =>
    intro i
    simp only [List.mem_cons, List.mem_singleton, List.not_mem_nil, or_false]
    exact or_comm
  case hwf => decide
  case hnoerr =>
    intro i hi e h
    simp only [List.mem_cons, List.mem_singleton, List.not_mem_nil, or_false] at hi
    rcases hi with rfl | rfl <;> cases h

/-- The hypothesis on errors cannot be dropped: an abort and a condition comparing a number with
a boolean answer differently in the two orders. -/
theorem matchBind_encode_order_matters_of_mismatch :
    (DeviceMatcher.new ⟨fun _ => none, encode sampleConstants
        [.abort, .cond .equal (.number 1) (.bool true)]⟩
      fun _ => some (.numberValue 1)).matchBind sampleConstants = .ok false ∧
    (DeviceMatcher.new ⟨fun _ => none, encode sampleConstants
        [.cond .equal (.number 1) (.bool true), .abort]⟩
      fun _ => some (.numberValue 1)).matchBind sampleConstants =
        .error (.err .mismatchValueTypes) := by
  constructor <;> rw [DeviceMatcher.new, encode_cons, matchBind_encode_cons (by decide)] <;> rfl

end MatchBind

end BindBytecode
