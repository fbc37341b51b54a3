import BindBytecode.MatchBind.Program

/-!
# MatchBind/Acceptance: which byte streams match, and which panic

`match_bind` runs over arbitrary bytes, not only over encoded programs.  This module reads its
result backwards, from `Ok(true)` and from a panic to the shape of the stream.

THE PASS LEMMA.  `matchBind_pass` says once everything one pass of the loop can do: consume a
well-formed instruction whose outcome is to continue, or end the run (`RunEnd`) because the
stream is exhausted, with `Ok(false)`, with an `Err`, or with the `unimplemented!` panic of a
condition whose key operand is a boolean or an enum.  By induction over the bytes left,
`matchBind_run` splits every run into an accepted prefix and the pass that ends it.

WHAT IS PROVED.  Each of the four outcomes is characterised on every byte stream.  A stream
matches exactly when it is an encoded program whose instructions all pass
(`matchBind_eq_ok_true_iff`): an unknown opcode or value-type byte, a truncated operand, a
boolean operand other than 0 or 1 or a missing symbol anywhere in the stream rules out
`Ok(true)`.  It answers `Ok(false)` exactly when an accepted prefix is followed by an abort or a
failing condition, whatever comes after (`matchBind_eq_ok_false_iff`), and `Err(e)` exactly when
an accepted prefix is followed by a pass that fails with `e` (`PassError`,
`matchBind_eq_err_iff`).  A run panics exactly when, after an accepted prefix, a condition's key
operand is a boolean or an enum (`matchBind_eq_panic_iff`), so some streams do panic, and the
`panic!` arm of `evaluate_condition_inst` is never reached.

The same decomposition shows that the symbol table is only looked up: a table with more entries
keeps every verdict (`matchBind_ok_of_extends`).
-/

set_option autoImplicit false

namespace BindBytecode

namespace MatchBind

/-- Spec section 4.3, condition by condition: `Equal(k, v)` holds when the device has `v` at `k`;
`Inequal(k, v)` holds when `k` is absent, or present with a value of `v`'s variant other than
`v`.  The other instructions state no condition. -/
def Instr.Holds (symbolTable : SymbolTable) (properties : DeviceProperties) : Instr → Prop
  | .cond .equal k v => properties (k.project symbolTable) = some (v.materialise symbolTable)
  | .cond .inequal k v =>
    match properties (k.project symbolTable) with
    | none => True
    | some d =>
      d.discriminant = (v.materialise symbolTable).discriminant ∧ d ≠ v.materialise symbolTable
  | .abort | .skip _ => True

variable (K : BindProgramV2Constants)

/-- A program the matcher accepts: it has no abort, every symbol index it references is in the
table, and every condition holds.  Its boolean operands are 0 or 1, as `Operand` encodes them. -/
def Accepted (symbolTable : SymbolTable) (properties : DeviceProperties) (program : List Instr) :
    Prop :=
  ∀ i ∈ program, i ≠ .abort ∧ i.WellFormed K symbolTable ∧ i.Holds symbolTable properties

/-- Spec section 7, one pass at a time: how a pass fails with an error. -/
inductive PassError (symbolTable : SymbolTable) (properties : DeviceProperties) :
    BytecodeIter → BytecodeError → Prop where
  /-- a byte that is not an opcode -/
  | invalidOp (b : UInt8) (rest : BytecodeIter) (hb : RawOp.fromU8 K b = none) :
    PassError symbolTable properties (b :: rest) (.invalidOp b)
  /-- a condition whose key operand does not decode -/
  | keyOperand (c : Condition) (rest : BytecodeIter) (e : BytecodeError)
      (he : OperandError K symbolTable rest e) :
    PassError symbolTable properties (c.toRawOp.toU8 :: rest) e
  /-- a condition whose key operand decodes and whose value operand does not -/
  | valueOperand (c : Condition) (k : KeyOperand) (hk : k.toOperand.Resolves symbolTable)
      (rest : BytecodeIter) (e : BytecodeError) (he : OperandError K symbolTable rest e) :
    PassError symbolTable properties (c.toRawOp.toU8 :: (k.toOperand.bytes K ++ rest)) e
  /-- a well-formed condition whose key the device holds with a value of another variant -/
  | mismatch (c : Condition) (k : KeyOperand) (v : Operand) (rest : BytecodeIter)
      (hwf : (Instr.cond c k v).WellFormed K symbolTable) (d : Symbol)
      (hd : properties (k.project symbolTable) = some d)
      (hdisc : d.discriminant ≠ (v.materialise symbolTable).discriminant) :
    PassError symbolTable properties ((Instr.cond c k v).encode K ++ rest) .mismatchValueTypes

/-- How the pass that ends a run ends it. -/
inductive RunEnd (symbolTable : SymbolTable) (properties : DeviceProperties) :
    BytecodeIter → Except Fault Bool → Prop where
  /-- the stream is exhausted -/
  | exhausted : RunEnd symbolTable properties [] (.ok true)
  /-- a well-formed instruction that stops the run without a match: an unconditional abort or a
  condition that fails -/
  | noMatch (i : Instr) (rest : BytecodeIter) (hi : i.WellFormed K symbolTable)
      (hout : i.outcome symbolTable properties = .ok false) :
    RunEnd symbolTable properties (i.encode K ++ rest) (.ok false)
  /-- a pass that fails with an error -/
  | error (it : BytecodeIter) (e : BytecodeError) (he : PassError K symbolTable properties it e) :
    RunEnd symbolTable properties it (.error (.err e))
  /-- the `unimplemented!` arm: a condition whose key operand is a boolean or an enum -/
  | keyPanic (c : Condition) (o : Operand) (rest : BytecodeIter) (ho : o.IsBoolOrEnum) :
    RunEnd symbolTable properties (c.toRawOp.toU8 :: (o.bytes K ++ rest))
      (.error (.panic unimplementedKeyTypeMessage))

variable {K} {symbolTable : SymbolTable} {properties : DeviceProperties}

/-! ## One instruction -/

/-- An instruction lets the run continue exactly when it is not an abort and its condition
holds. -/
theorem Instr.outcome_eq_ok_true {i : Instr} :
    i.outcome symbolTable properties = .ok true ↔ i ≠ .abort ∧ i.Holds symbolTable properties := by
  cases i with
  | abort => simp [Instr.outcome]
  | skip _ => simp [Instr.outcome, Instr.Holds]
  | cond c k v =>
    simp only [Instr.outcome, ne_eq, reduceCtorEq, not_false_eq_true, true_and]
    cases hp : properties (k.project symbolTable) with
    | none => cases c <;> simp [Instr.Holds, hp]
    | some d =>
      by_cases hd : d.discriminant = (v.materialise symbolTable).discriminant
      · cases c <;> simp [Instr.Holds, hp, hd]
      · have hne : d ≠ v.materialise symbolTable := fun h => hd (h ▸ rfl)
        cases c <;> simp [Instr.Holds, hp, hd, hne]

theorem Instr.outcome_mismatch {c : Condition} {k : KeyOperand} {v : Operand} {d : Symbol}
    (hd : properties (k.project symbolTable) = some d)
    (hdisc : d.discriminant ≠ (v.materialise symbolTable).discriminant) :
    (Instr.cond c k v).outcome symbolTable properties = .error .mismatchValueTypes := by
  simp only [Instr.outcome, hd, if_pos hdisc]

/-- A condition errs only at a present key holding a value of another variant. -/
theorem Instr.outcome_cond_eq_error {c : Condition} {k : KeyOperand} {v : Operand}
    {e : BytecodeError} (h : (Instr.cond c k v).outcome symbolTable properties = .error e) :
    e = .mismatchValueTypes ∧ ∃ d, properties (k.project symbolTable) = some d ∧
      d.discriminant ≠ (v.materialise symbolTable).discriminant := by
  simp only [Instr.outcome] at h
  split at h
  · cases h
  · split_ifs at h with hd
    cases h
    exact ⟨rfl, _, ‹_›, hd⟩

/-- Every opcode `from_u8` returns is a condition's, the abort, or one the loop skips. -/
theorem RawOp.cases (op : RawOp) :
    (∃ c : Condition, op = c.toRawOp) ∨ op = .abort ∨ ∃ d, op = .other d := by
  cases op with
  | equalCondition => exact .inl ⟨.equal, rfl⟩
  | inequalCondition => exact .inl ⟨.inequal, rfl⟩
  | abort => exact .inr (.inl rfl)
  | other d => exact .inr (.inr ⟨d, rfl⟩)

/-! ## One pass, and a whole run -/

/-- One pass of the loop, every way it can go: it consumes a well-formed instruction whose outcome
is to continue, and the run goes on with the rest, or it ends the run. -/
theorem matchBind_pass {it : BytecodeIter} {r : Except Fault Bool}
    (h : (⟨properties, symbolTable, it⟩ : DeviceMatcher).matchBind K = r) :
    (∃ (i : Instr) (it' : BytecodeIter), it = i.encode K ++ it' ∧ i.WellFormed K symbolTable ∧
      i.outcome symbolTable properties = .ok true ∧
      (⟨properties, symbolTable, it'⟩ : DeviceMatcher).matchBind K = r) ∨
    RunEnd K symbolTable properties it r := by
  subst h
  match it with
  | [] => rw [matchBind_nil]; exact .inr .exhausted
  | byte :: rest =>
    cases hop : RawOp.fromU8 K byte with
    | none => rw [matchBind_invalidOp hop]; exact .inr (.error _ _ (.invalidOp byte rest hop))
    | some op =>
      obtain ⟨rfl, hother⟩ := RawOp.fromU8_eq_some K hop
      obtain ⟨c, rfl⟩ | rfl | ⟨d, rfl⟩ := RawOp.cases op
      · rw [matchBind_condition hop]
        rcases readAndEvaluateValues_cases K c rest with ⟨e, he, hr⟩ | ⟨o, rest', rfl, ho, hr⟩ |
            ⟨k, rest', e, rfl, hk, he, hr⟩ | ⟨k, v, rest', rfl, hk, hv, hr⟩ <;> rw [hr]
        · exact .inr (.error _ e (.keyOperand c rest e he))
        · exact .inr (.keyPanic c o rest' ho)
        · exact .inr (.error _ e (.valueOperand c k hk rest' e he))
        · rw [evaluateProperty_eq_outcome, ← List.cons_append, ← Instr.encode_cond]
          rcases hout : (Instr.cond c k v).outcome symbolTable properties with e | ⟨⟩ | ⟨⟩
          · obtain ⟨rfl, d, hd, hdisc⟩ := Instr.outcome_cond_eq_error hout
            exact .inr (.error _ _ (.mismatch c k v rest' ⟨hk, hv⟩ d hd hdisc))
          · exact .inr (.noMatch _ rest' ⟨hk, hv⟩ hout)
          · exact .inl ⟨.cond c k v, rest', rfl, ⟨hk, hv⟩, hout, rfl⟩
      · rw [matchBind_abort hop]; exact .inr (.noMatch .abort rest trivial rfl)
      · exact .inl ⟨.skip d, rest, rfl, hother d rfl, rfl, (matchBind_other hop).symm⟩

/-- Every run is an accepted program followed by the pass that ends the run. -/
theorem matchBind_run (it : BytecodeIter) {r : Except Fault Bool}
    (h : (⟨properties, symbolTable, it⟩ : DeviceMatcher).matchBind K = r) :
    ∃ (program : List Instr) (it' : BytecodeIter), it = encode K program ++ it' ∧
      Accepted K symbolTable properties program ∧ RunEnd K symbolTable properties it' r := by
  obtain ⟨n, hn⟩ : ∃ n, it.length = n := ⟨_, rfl⟩
  induction n using Nat.strong_induction_on generalizing it with
  | _ n ih =>
    rcases matchBind_pass h with ⟨i, it', rfl, hwf, hout, h'⟩ | hend
    · obtain ⟨hab, hholds⟩ := Instr.outcome_eq_ok_true.1 hout
      have hlt : it'.length < n := by
        rw [← hn, List.length_append]
        have := i.length_encode_pos K
        omega
      obtain ⟨program, it'', rfl, hacc, hend⟩ := ih _ hlt it' h' rfl
      exact ⟨i :: program, it'', by rw [encode_cons, List.append_assoc],
        List.forall_mem_cons.2 ⟨⟨hab, hwf, hholds⟩, hacc⟩, hend⟩
    · exact ⟨[], it, rfl, nofun, hend⟩

/-- An accepted prefix is transparent: the matcher passes over it to whatever follows. -/
theorem matchBind_accepted_append {program : List Instr}
    (hacc : Accepted K symbolTable properties program) (tail : BytecodeIter) :
    (⟨properties, symbolTable, encode K program ++ tail⟩ : DeviceMatcher).matchBind K =
      (⟨properties, symbolTable, tail⟩ : DeviceMatcher).matchBind K := by
  induction program with
  | nil => rfl
  | cons i program ih =>
    obtain ⟨⟨hab, hwf, hholds⟩, hacc⟩ := List.forall_mem_cons.1 hacc
    rw [encode_cons, List.append_assoc, matchBind_encode_cons hwf,
      Instr.outcome_eq_ok_true.2 ⟨hab, hholds⟩]
    exact ih hacc

/-- Each way a pass can fail is an error the matcher returns. -/
theorem matchBind_passError {it : BytecodeIter} {e : BytecodeError}
    (he : PassError K symbolTable properties it e) :
    (⟨properties, symbolTable, it⟩ : DeviceMatcher).matchBind K = .error (.err e) := by
  cases he with
  | invalidOp b rest hb => exact matchBind_invalidOp hb
  | keyOperand c rest e he =>
    rw [matchBind_condition (c.fromU8_toRawOp K), readAndEvaluateValues_keyError K c he]
  | valueOperand c k hk rest e he =>
    rw [matchBind_condition (c.fromU8_toRawOp K), readAndEvaluateValues_valueError K c hk he]
  | mismatch c k v rest hwf d hd hdisc =>
    rw [matchBind_encode_cons hwf, Instr.outcome_mismatch hd hdisc]

/-- A program accepted under a symbol table is accepted under every table that keeps its
entries. -/
theorem Accepted.of_extends {symbolTable' : SymbolTable}
    (hext : ∀ i s, symbolTable i = some s → symbolTable' i = some s) {program : List Instr}
    (hacc : Accepted K symbolTable properties program) :
    Accepted K symbolTable' properties program := by
  intro i hi
  obtain ⟨hab, hwf, hholds⟩ := hacc i hi
  refine ⟨hab, Instr.wellFormed_of_extends hext hwf, (Instr.outcome_eq_ok_true.1 ?_).2⟩
  rw [Instr.outcome_of_extends hext hwf, Instr.outcome_eq_ok_true.2 ⟨hab, hholds⟩]

/-! ## The four outcomes -/

variable (K)

/-- The streams the matcher accepts are exactly the encodings of accepted programs. -/
theorem matchBind_eq_ok_true_iff (bytecode : List UInt8) (symbolTable : SymbolTable)
    (properties : DeviceProperties) :
    (DeviceMatcher.new ⟨symbolTable, bytecode⟩ properties).matchBind K = .ok true ↔
      ∃ program : List Instr, bytecode = encode K program ∧
        Accepted K symbolTable properties program := by
  constructor
  · intro h
    obtain ⟨program, it, rfl, hacc, hend⟩ := matchBind_run bytecode h
    cases hend
    exact ⟨program, List.append_nil _, hacc⟩
  · rintro ⟨program, rfl, hacc⟩
    rw [DeviceMatcher.new, ← List.append_nil (encode K program), matchBind_accepted_append hacc,
      matchBind_nil]

/-- The matcher panics exactly at a condition whose key operand is a boolean or an enum, reached
after an accepted prefix; the message is always that of the `unimplemented!` arm. -/
theorem matchBind_eq_panic_iff (bytecode : List UInt8) (symbolTable : SymbolTable)
    (properties : DeviceProperties) (msg : String) :
    (DeviceMatcher.new ⟨symbolTable, bytecode⟩ properties).matchBind K = .error (.panic msg) ↔
      msg = unimplementedKeyTypeMessage ∧
      ∃ (program : List Instr) (c : Condition) (o : Operand) (rest : List UInt8),
        bytecode = encode K program ++ c.toRawOp.toU8 :: (o.bytes K ++ rest) ∧
        Accepted K symbolTable properties program ∧ o.IsBoolOrEnum := by
  constructor
  · intro h
    obtain ⟨program, it, rfl, hacc, hend⟩ := matchBind_run bytecode h
    cases hend with
    | keyPanic c o rest ho => exact ⟨rfl, program, c, o, rest, rfl, hacc, ho⟩
  · rintro ⟨rfl, program, c, o, rest, rfl, hacc, ho⟩
    rw [DeviceMatcher.new, matchBind_accepted_append hacc,
      matchBind_condition (c.fromU8_toRawOp K), readAndEvaluateValues_boolOrEnum K c ho]

/-- An equal condition on a boolean key panics, before its value operand is even read. -/
theorem matchBind_bool_key_panics :
    (DeviceMatcher.new ⟨fun _ => none, [0x01, 0x03, 0x01, 0x00, 0x00, 0x00]⟩
      fun _ => none).matchBind sampleConstants = .error (.panic unimplementedKeyTypeMessage) := by
  have hbytes : [0x01, 0x03, 0x01, 0x00, 0x00, 0x00] =
      Condition.equal.toRawOp.toU8 :: ((Operand.bool true).bytes sampleConstants ++ []) := by
    decide
  rw [DeviceMatcher.new, hbytes, matchBind_condition (Condition.equal.fromU8_toRawOp _),
    readAndEvaluateValues_boolOrEnum sampleConstants .equal
      (show (Operand.bool true).IsBoolOrEnum from trivial)]

/-- The matcher answers no exactly when, after an accepted prefix, it meets a well-formed
instruction that stops the run: an unconditional abort, or a condition that fails (an equal
condition on an absent key or on another value of the same variant, an inequal condition on an
equal value).  Whatever follows is never read. -/
theorem matchBind_eq_ok_false_iff (bytecode : List UInt8) (symbolTable : SymbolTable)
    (properties : DeviceProperties) :
    (DeviceMatcher.new ⟨symbolTable, bytecode⟩ properties).matchBind K = .ok false ↔
      ∃ (program : List Instr) (i : Instr) (rest : List UInt8),
        bytecode = encode K program ++ i.encode K ++ rest ∧
        Accepted K symbolTable properties program ∧ i.WellFormed K symbolTable ∧
        i.outcome symbolTable properties = .ok false := by
  constructor
  · intro h
    obtain ⟨program, it, rfl, hacc, hend⟩ := matchBind_run bytecode h
    cases hend with
    | noMatch i rest hi hout =>
      exact ⟨program, i, rest, (List.append_assoc _ _ _).symm, hacc, hi, hout⟩
  · rintro ⟨program, i, rest, rfl, hacc, hi, hout⟩
    rw [DeviceMatcher.new, List.append_assoc, matchBind_accepted_append hacc,
      matchBind_encode_cons hi, hout]

/-- The matcher returns an error exactly when, after an accepted prefix, a pass fails: at a byte
that is not an opcode, at a condition operand that does not decode (spec section 4.2), or at a
comparison of values of different variants.  No error is turned into a non-match. -/
theorem matchBind_eq_err_iff (bytecode : List UInt8) (symbolTable : SymbolTable)
    (properties : DeviceProperties) (e : BytecodeError) :
    (DeviceMatcher.new ⟨symbolTable, bytecode⟩ properties).matchBind K = .error (.err e) ↔
      ∃ (program : List Instr) (it : List UInt8), bytecode = encode K program ++ it ∧
        Accepted K symbolTable properties program ∧ PassError K symbolTable properties it e := by
  constructor
  · intro h
    obtain ⟨program, it, rfl, hacc, hend⟩ := matchBind_run bytecode h
    cases hend with
    | error it e he => exact ⟨program, it, rfl, hacc, he⟩
  · rintro ⟨program, it, rfl, hacc, he⟩
    rw [DeviceMatcher.new, matchBind_accepted_append hacc, matchBind_passError he]

/-! ## A larger symbol table -/

/-- The matcher only looks symbols up, so a table with more entries never changes a verdict: a
stream that matches, or does not, under a symbol table does the same under every table that keeps
its entries.  What a larger table can change is an error, such as a missing symbol. -/
theorem matchBind_ok_of_extends (bytecode : List UInt8) (symbolTable symbolTable' : SymbolTable)
    (properties : DeviceProperties)
    (hext : ∀ i s, symbolTable i = some s → symbolTable' i = some s) (b : Bool)
    (h : (DeviceMatcher.new ⟨symbolTable, bytecode⟩ properties).matchBind K = .ok b) :
    (DeviceMatcher.new ⟨symbolTable', bytecode⟩ properties).matchBind K = .ok b := by
  obtain ⟨program, it, rfl, hacc, hend⟩ := matchBind_run bytecode h
  rw [DeviceMatcher.new, matchBind_accepted_append (hacc.of_extends hext)]
  cases hend with
  | exhausted => exact matchBind_nil
  | noMatch i rest hi hout =>
    rw [matchBind_encode_cons (Instr.wellFormed_of_extends hext hi),
      Instr.outcome_of_extends hext hi, hout]

/-- An inequal condition on a string key the device lacks matches under a one-entry table, and so
under a table with a second entry. -/
theorem matchBind_ok_of_extends_inequal :
    (∀ i s, (fun i : UInt32 => if i = 0 then some "rail" else none) i = some s →
      (fun i : UInt32 => if i = 0 then some "rail" else some "crake") i = some s) ∧
    (DeviceMatcher.new ⟨fun i => if i = 0 then some "rail" else none,
        encode sampleConstants [.cond .inequal (.stringValue 0) (.stringValue 0)]⟩
      fun _ => none).matchBind sampleConstants = .ok true ∧
    (DeviceMatcher.new ⟨fun i => if i = 0 then some "rail" else some "crake",
        encode sampleConstants [.cond .inequal (.stringValue 0) (.stringValue 0)]⟩
      fun _ => none).matchBind sampleConstants = .ok true := by
  refine ⟨?hext, ?h, matchBind_ok_of_extends _ _ _ _ _ ?hext _ ?h⟩
  case hext =>
    intro i s h
    by_cases hi : i = 0 <;> simp_all
  case h =>
    rw [DeviceMatcher.new, encode_cons, matchBind_encode_cons (by decide)]
    exact matchBind_nil

end MatchBind

end BindBytecode
