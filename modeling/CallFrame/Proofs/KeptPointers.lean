import CallFrame.Proofs.Displacement

/-!
Pointers that are kept and never followed. The personality of a common entry and the language specific data of
a function are decoded on the way to what unwinding needs, and an entry is lost if they cannot be. So the bases
of text and data matter to a module even if its functions are not stored relative to them. A function that is
read with the one pair of bases is lost with another pair just if a pointer that is kept with it has no base
there. In all else the two readings are the same.
-/

namespace CallFrame

/-! Results that hinge on a condition. -/
section Hinging

/-- Where the one succeeds, so does the other if the condition holds, with a related answer. Otherwise the other
one fails. -/
inductive Hinges (on : Prop) (R : α → β → Prop) : Except Fault α → Except Fault β → Prop
  | failed {fault : Fault} {other : Except Fault β} : Hinges on R (.error fault) other
  | kept {value : α} {value' : β} (holds : on) (related : R value value') :
      Hinges on R (.ok value) (.ok value')
  | lost {value : α} {fault : Fault} (fails : ¬on) : Hinges on R (.ok value) (.error fault)

theorem hinges_iff {on on' : Prop} {R : α → β → Prop} {one : Except Fault α} {other : Except Fault β}
    (hinges : Hinges on R one other) (same : on ↔ on') : Hinges on' R one other :=
  propext same ▸ hinges

theorem hinges_bind {first whole : Prop} {R : α → β → Prop} {S : γ → δ → Prop} {one : Except Fault α}
    {other : Except Fault β} {follow : α → Except Fault γ} {follow' : β → Except Fault δ}
    (begun : Hinges first R one other) (needed : whole → first)
    (rest : ∀ value value', one = .ok value → first → R value value' →
      Hinges whole S (follow value) (follow' value')) :
    Hinges whole S (one >>= follow) (other >>= follow') := by
  cases begun with
  | failed => exact .failed
  | kept holds related => exact rest _ _ rfl holds related
  | @lost value fault fails =>
      change Hinges whole S (follow value) (.error fault)
      cases follow value with
      | error => exact .failed
      | ok => exact .lost fun holds => fails (needed holds)

def ReadM.outcome (read : ReadM α) (cursor : Cursor) : Except Fault (α × Cursor) :=
  match read.run cursor with
  | (.ok value, rest) => .ok (value, rest)
  | (.error fault, _) => .error fault

theorem outcome_bind (read : ReadM α) (follow : α → ReadM β) (cursor : Cursor) :
    (read >>= follow).outcome cursor =
      read.outcome cursor >>= fun answer => (follow answer.1).outcome answer.2 := by
  unfold ReadM.outcome
  rw [ReadM.run_bind]
  rcases read.run cursor with ⟨fault | value, rest⟩ <;> rfl

theorem outcome_ok {read : ReadM α} {cursor : Cursor} {answer : α × Cursor}
    (succeeds : read.outcome cursor = .ok answer) : read.run cursor = (.ok answer.1, answer.2) := by
  unfold ReadM.outcome at succeeds
  rcases ran : read.run cursor with ⟨fault | value, rest⟩ <;> rw [ran] at succeeds <;> cases succeeds
  rfl

theorem outcome_value (read : ReadM α) (cursor : Cursor) :
    read.value cursor = (read.outcome cursor).map Prod.fst := by
  unfold ReadM.value ReadM.outcome
  rcases read.run cursor with ⟨fault | value, rest⟩ <;> rfl

def Trails (on : Prop) (R : α → β → Prop) (one : ReadM α) (other : ReadM β) (cursor : Cursor) : Prop :=
  Hinges on (fun answer answer' => R answer.1 answer'.1 ∧ answer'.2 = answer.2) (one.outcome cursor)
    (other.outcome cursor)

variable {on first whole : Prop} {R : α → β → Prop} {S : γ → δ → Prop} {cursor : Cursor}

theorem trails_pure {value : α} {value' : β} (holds : on) (related : R value value') :
    Trails on R (pure value) (pure value') cursor :=
  .kept holds ⟨related, rfl⟩

theorem trails_throw (fault : Fault) (other : ReadM β) : Trails on R (throw fault) other cursor :=
  .failed

theorem trails_lift {one : Except Fault α} {other : Except Fault β} (hinges : Hinges on R one other) :
    Trails on R (liftM one) (liftM other) cursor := by
  cases hinges with
  | failed => exact .failed
  | kept holds related => exact .kept holds ⟨related, rfl⟩
  | lost fails => exact .lost fails

theorem trails_value {one : ReadM α} {other : ReadM β} (trails : Trails on R one other cursor) :
    Hinges on R (one.value cursor) (other.value cursor) := by
  rw [outcome_value, outcome_value]
  unfold Trails at trails
  generalize one.outcome cursor = answer, other.outcome cursor = answer' at trails
  cases trails with
  | failed => exact .failed
  | kept holds related => exact .kept holds related.1
  | lost fails => exact .lost fails

theorem trails_bind {one : ReadM α} {other : ReadM β} {follow : α → ReadM γ} {follow' : β → ReadM δ}
    (begun : Trails first R one other cursor) (needed : whole → first)
    (rest : ∀ value value' after, one.run cursor = (.ok value, after) → first → R value value' →
      Trails whole S (follow value) (follow' value') after) :
    Trails whole S (one >>= follow) (other >>= follow') cursor := by
  unfold Trails
  rw [outcome_bind, outcome_bind]
  apply hinges_bind begun needed
  rintro ⟨value, _⟩ ⟨value', after⟩ succeeds holds ⟨related, rfl⟩
  exact rest value value' after (outcome_ok succeeds) holds related

/-- The two steps begin with the same one. -/
theorem trails_then (read : ReadM α) {follow : α → ReadM γ} {follow' : α → ReadM δ}
    (rest : ∀ value after, read.run cursor = (.ok value, after) →
      Trails whole S (follow value) (follow' value) after) :
    Trails whole S (read >>= follow) (read >>= follow') cursor := by
  have begun : Trails True Eq read read cursor := by
    unfold Trails
    cases read.outcome cursor with
    | error => exact .failed
    | ok answer => exact .kept trivial ⟨rfl, rfl⟩
  apply trails_bind begun fun _ => trivial
  rintro value _ after ran - rfl
  exact rest value after ran

theorem in_block_trails {one : ReadM α} {other : ReadM β}
    (inside : ∀ block after, readBlock.run cursor = (.ok block, after) →
      Trails on R one other { after with data := block, offset := after.offset - block.length }) :
    Trails on R (readInBlock one) (readInBlock other) cursor := by
  apply trails_then
  intro block after ran
  apply trails_then
  rintro _ _ ⟨⟩
  exact trails_lift (trails_value (inside block _ ran))

end Hinging

/-! Pointers. -/
section Pointers

structure Encoding.Baseless (encoding : Encoding) : Prop where
  text : encoding.application ≠ .ok .textRelative
  data : encoding.application ≠ .ok .dataRelative

instance : DecidablePred Encoding.Baseless := fun encoding =>
  decidable_of_iff (encoding.application ≠ .ok .textRelative ∧ encoding.application ≠ .ok .dataRelative)
    ⟨fun both => ⟨both.1, both.2⟩, fun baseless => ⟨baseless.text, baseless.data⟩⟩

structure Encoding.Based (encoding : Encoding) (text data : Option UInt64) : Prop where
  text : encoding.application = .ok .textRelative → text.isSome
  data : encoding.application = .ok .dataRelative → data.isSome

theorem based_iff {encoding : Encoding} {application : PointerApplication}
    (applied : encoding.application = .ok application) (text data : Option UInt64) :
    (application = .textRelative → text.isSome) ∧ (application = .dataRelative → data.isSome) ↔
      encoding.Based text data := by
  constructor
  · rintro ⟨text, data⟩
    exact ⟨fun relative => text (Except.ok.inj (applied.symm.trans relative)),
      fun relative => data (Except.ok.inj (applied.symm.trans relative))⟩
  · rintro ⟨text, data⟩
    exact ⟨fun relative => text (relative ▸ applied), fun relative => data (relative ▸ applied)⟩

theorem based_given {encoding : Encoding} {text data text' data' : Option UInt64}
    (based : encoding.Based text data) (givenText : text'.isSome = text.isSome)
    (givenData : data'.isSome = data.isSome) : encoding.Based text' data' where
  text relative := givenText.trans (based.text relative)
  data relative := givenData.trans (based.data relative)

theorem format_only_baseless (encoding : Encoding) : encoding.formatOnly.Baseless := by
  constructor <;> rw [format_only_absolute] <;> rintro ⟨⟩

theorem direct_based (encoding : Encoding) (text data : Option UInt64) :
    encoding.direct.Based text data ↔ encoding.Based text data := by
  constructor
  · rintro ⟨text, data⟩
    rw [direct_application] at text data
    exact ⟨text, data⟩
  · rintro ⟨text, data⟩
    rw [← direct_application] at text data
    exact ⟨text, data⟩

def PointerBases.Rebased (bases other : PointerBases) : Prop :=
  other = { bases with text := other.text, data := other.data }

variable {bases other : PointerBases} (rebased : bases.Rebased other)

include rebased

theorem origin_hinges (encoding : Encoding) (place : UInt64) :
    Hinges (encoding.Based other.text other.data) (fun _ _ => True) (bases.origin encoding place)
      (other.origin encoding place) := by
  rw [rebased]
  cases applied : encoding.application with
  | error fault =>
      rw [origin_fails applied]
      exact .failed
  | ok application =>
      rw [origin_applied applied, origin_applied applied]
      apply hinges_iff _ (based_iff applied _ _)
      cases application with
      | absolute | pcRelative | aligned => exact .kept (by simp) trivial
      | textRelative =>
          simp only [PointerBases.base]
          cases bases.text with
          | none => exact .failed
          | some =>
              cases other.text with
              | none => exact .lost (by simp)
              | some => exact .kept (by simp) trivial
      | dataRelative =>
          simp only [PointerBases.base]
          cases bases.data with
          | none => exact .failed
          | some =>
              cases other.data with
              | none => exact .lost (by simp)
              | some => exact .kept (by simp) trivial
      | functionRelative =>
          simp only [PointerBases.base]
          cases bases.function with
          | none => exact .failed
          | some => exact .kept (by simp) trivial

theorem pointer_trails (encoding : Encoding) (size : UInt8) (cursor : Cursor) :
    Trails (encoding.Based other.text other.data) (fun _ _ => True) (readPointer encoding size bases)
      (readPointer encoding size other) cursor := by
  rw [read_pointer_stored, read_pointer_stored]
  split
  next omitted =>
    apply trails_pure _ trivial
    constructor <;> simp [omitted, omitted_application]
  apply trails_then
  rintro ⟨place, value⟩ _ _
  apply trails_bind (trails_lift (origin_hinges rebased encoding place)) id
  intro base base' _ _ based _
  exact trails_pure based trivial

theorem baseless_origin {encoding : Encoding} (baseless : encoding.Baseless) (place : UInt64) :
    other.origin encoding place = bases.origin encoding place := by
  rw [rebased]
  cases applied : encoding.application with
  | error fault => rw [origin_fails applied, origin_fails applied]
  | ok application =>
      rw [origin_applied applied, origin_applied applied]
      cases application with
      | textRelative => exact absurd applied baseless.text
      | dataRelative => exact absurd applied baseless.data
      | absolute | pcRelative | functionRelative | aligned => rfl

theorem baseless_pointer {encoding : Encoding} (baseless : encoding.Baseless) (size : UInt8) :
    readPointer encoding size other = readPointer encoding size bases := by
  simp only [read_pointer_stored, baseless_origin rebased baseless]

theorem baseless_required (absent : Fault) {encoding : Encoding} (baseless : encoding.Baseless)
    (size : UInt8) : readRequired absent encoding size other = readRequired absent encoding size bases := by
  rw [readRequired, readRequired, baseless_pointer rebased baseless]

end Pointers

/-! Common entries. -/
section CommonEntries

variable {bases other : PointerBases}

theorem augmentation_trails (size : UInt8) (letters : List Char) (rebased : bases.Rebased other)
    (aug aug' : Augmentation) (same : aug.impersonal = aug'.impersonal) (cursor : Cursor) :
    Trails (∀ encoding ∈ personalityEncodings size bases letters cursor, encoding.Based other.text other.data)
      (fun one other => one.impersonal = other.impersonal) (readAugmentation size bases letters aug)
      (readAugmentation size other letters aug') cursor := by
  fun_induction readAugmentation size bases letters aug generalizing aug' cursor with
  | case1 letters aug ih | case3 letters aug ih =>
      have fields := Augmentation.mk.inj same
      rw [personalityEncodings]
      apply trails_then
      intro encoding after ran
      rw [onward_ok ran]
      apply ih
      simp [Augmentation.impersonal, fields]
  | case2 letters aug ih =>
      have fields := Augmentation.mk.inj same
      rw [personalityEncodings]
      apply trails_then
      intro encoding after ran
      rw [onward_ok ran]
      -- the pointer comes first, and what is read after it hinges on the others
      have first := pointer_trails rebased (Encoding.mk encoding).direct size after
      apply trails_bind first fun all => (direct_based _ _ _).mpr (all _ List.mem_cons_self)
      intro pointer pointer' behind ran based _
      rw [onward_ok ran, List.forall_mem_cons, ← direct_based, and_iff_right based]
      apply ih
      simp [Augmentation.impersonal, fields]
  | case4 letters aug ih =>
      have fields := Augmentation.mk.inj same
      rw [personalityEncodings]
      apply ih
      simp [Augmentation.impersonal, fields]
  | case5 =>
      -- there are no letters, or one that is not known
      rw [readAugmentation]
      · refine trails_pure ?_ same
        rw [personalityEncodings]
        · simp
        all_goals assumption
      all_goals assumption

theorem augmentation_part_trails (before : Prelude) (rebased : bases.Rebased other) (cursor : Cursor) :
    Trails (∀ encoding ∈ before.pointerEncodings bases cursor, encoding.Based other.text other.data)
      (fun one other => one.map Augmentation.impersonal = other.map Augmentation.impersonal)
      (readAugmentationPart before.text before.addressSize bases)
      (readAugmentationPart before.text before.addressSize other) cursor := by
  unfold readAugmentationPart
  split
  next letters text =>
    simp only [Prelude.pointerEncodings, text, map_eq_pure_bind]
    apply trails_bind (R := fun one other => one.impersonal = other.impersonal) _ id
    · intro aug aug' after _ based same
      exact trails_pure based (congrArg some same)
    · apply in_block_trails
      intro block after ran
      rw [onward_ok ran]
      exact augmentation_trails before.addressSize letters rebased {} {} rfl _
  next text => exact trails_pure (by simp [Prelude.pointerEncodings, text]) rfl
  next text => exact trails_pure (by simp [Prelude.pointerEncodings, text]) rfl
  · exact trails_throw _ _

def Layout.rebased (layout : Layout) (text data : Option UInt64) : Layout :=
  { layout with textBase := text, dataBase := data }

variable (area : Section) (layout : Layout) (text data : Option UInt64)

theorem section_rebased : (area.bases layout).Rebased (area.bases (layout.rebased text data)) := rfl

theorem read_cie_trails (offset : Nat) (cursor : Cursor) :
    Trails (∀ encoding ∈ cieEncodings area layout cursor, encoding.Based text data)
      (fun one other => one.impersonal = other.impersonal) (readCie offset area layout)
      (readCie offset area (layout.rebased text data)) cursor := by
  have prelude : readPrelude area.kind (layout.rebased text data) = readPrelude area.kind layout := rfl
  rw [read_cie_prelude, read_cie_prelude, prelude]
  apply trails_then
  intro before after ran
  rw [cieEncodings, onward_ok ran]
  apply trails_bind (augmentation_part_trails before (section_rebased area layout text data) after) id
  intro aug aug' behind _ based same
  apply trails_then
  intro rest _ _
  apply trails_pure based
  simp only [Cie.impersonal, Prelude.cie, same]

def Section.personalities (offset : Nat) : List Encoding :=
  match area.header layout.endian offset with
  | .ok (some header) => cieEncodings area layout header.body
  | _ => []

theorem cie_hinges (offset : Nat) :
    Hinges (∀ encoding ∈ area.personalities layout offset, encoding.Based text data)
      (fun one other => one.impersonal = other.impersonal) (area.cie layout offset)
      (area.cie (layout.rebased text data) offset) := by
  unfold Section.cie Section.personalities
  rw [show (layout.rebased text data).endian = layout.endian from rfl]
  cases area.header layout.endian offset with
  | error fault => exact .failed
  | ok found =>
      cases found with
      | none => exact .failed
      | some header =>
          change Hinges (∀ encoding ∈ cieEncodings area layout header.body, encoding.Based text data) _
            (header.cie area layout) (header.cie area (layout.rebased text data))
          unfold EntryHeader.cie
          split
          · exact trails_value (read_cie_trails area layout text data header.offset header.body)
          · exact .failed

end CommonEntries

/-! Functions. -/
section Functions

variable {bases other : PointerBases}

theorem lsda_trails (size : UInt8) (rebased : bases.Rebased other) (aug aug' : Option Augmentation)
    (same : aug'.map Augmentation.impersonal = aug.map Augmentation.impersonal) (cursor : Cursor) :
    Trails (∀ encoding ∈ aug.bind (·.lsdaEncoding), encoding.Based other.text other.data) (fun _ _ => True)
      (readLsda size bases aug) (readLsda size other aug') cursor := by
  cases aug <;> cases aug'
  · exact trails_pure (by simp) trivial
  · cases same
  · cases same
  next aug aug' =>
    have same : aug'.impersonal = aug.impersonal := Option.some.inj same
    have encoding : aug'.lsdaEncoding = aug.lsdaEncoding := (congrArg Augmentation.lsdaEncoding same :)
    apply in_block_trails
    intro block after _
    rw [encoding, Option.bind_some]
    cases aug.lsdaEncoding with
    | none => exact trails_pure (by simp) trivial
    | some encoding =>
        simp only [Option.mem_some_iff, forall_eq', ← direct_based encoding]
        exact pointer_trails rebased encoding.direct size _

def Fde.SameCode (fde other : Fde) : Prop := other = { fde with lsda := other.lsda }

theorem read_fde_trails (offset : Nat) {cie cie' : Cie} (same : cie.impersonal = cie'.impersonal)
    (baseless : cie.fdeEncoding.Baseless) (rebased : bases.Rebased other) (cursor : Cursor) :
    Trails (∀ encoding ∈ cie.augmentation.bind (·.lsdaEncoding), encoding.Based other.text other.data)
      Fde.SameCode (readFde offset cie bases) (readFde offset cie' other) cursor := by
  have encoding := impersonal_encoding same
  have size : cie'.addressSize = cie.addressSize := (congrArg Cie.addressSize same.symm :)
  have origin : cie'.offset = cie.offset := (congrArg Cie.offset same.symm :)
  unfold readFde
  rw [encoding, size, baseless_required rebased _ baseless,
    baseless_required rebased _ (format_only_baseless cie.fdeEncoding)]
  apply trails_then
  intro start _ _
  apply trails_then
  intro length after _
  have inside : PointerBases.Rebased { bases with function := some start }
      { other with function := some start } := by
    rw [PointerBases.Rebased, rebased]
  apply trails_bind (lsda_trails cie.addressSize inside cie.augmentation cie'.augmentation
    (impersonal_augmentation same) after) id
  intro lsda lsda' _ _ based _
  apply trails_then
  intro rest _ _
  apply trails_pure based
  rw [Fde.SameCode, origin]

variable (area : Section) (layout : Layout) (text data : Option UInt64)

/-- The encodings of the pointers that are kept of a function: of its common entry, which comes first, and of
its own. -/
def EntryHeader.keptEncodings (header : EntryHeader) : List Encoding :=
  match header.cieOffset area.kind with
  | .error _ => []
  | .ok offset =>
    area.personalities layout offset ++
      ((area.cie layout offset).toOption.bind fun cie => cie.augmentation.bind (·.lsdaEncoding)).toList

/-- With these bases of text and data, every pointer that is kept of the function has its base. -/
def EntryHeader.KeptBased (header : EntryHeader) : Prop :=
  ∀ encoding ∈ header.keptEncodings area layout, encoding.Based text data

theorem described_hinges {header : EntryHeader} {cie : Cie} {fde : Fde}
    (described : header.described area layout = .ok (cie, fde)) (baseless : cie.fdeEncoding.Baseless) :
    Hinges (header.KeptBased area layout text data)
      (fun one other => one.1.impersonal = other.1.impersonal ∧ one.2.SameCode other.2)
      (header.described area layout) (header.described area (layout.rebased text data)) := by
  obtain ⟨offset, named, rest⟩ := bind_ok described
  obtain ⟨shared, read, rest⟩ := bind_ok rest
  obtain ⟨own, ran, rest⟩ := bind_ok rest
  cases rest
  have kept : header.keptEncodings area layout =
      area.personalities layout offset ++ (cie.augmentation.bind (·.lsdaEncoding)).toList := by
    rw [EntryHeader.keptEncodings, named]
    dsimp only
    rw [read]
    rfl
  unfold EntryHeader.described EntryHeader.KeptBased
  rw [kept, named]
  change Hinges _ _ (area.cie layout offset >>= _) (area.cie (layout.rebased text data) offset >>= _)
  apply hinges_bind (cie_hinges area layout text data offset)
  · intro based encoding member
    exact based encoding (List.mem_append_left _ member)
  intro one other first based same
  cases read.symm.trans first
  -- what is left to hinge on is the function's own pointer
  have own := trails_value
    (read_fde_trails header.offset same baseless (section_rebased area layout text data) header.body)
  apply hinges_bind (hinges_iff own _) id
  · intro fde fde' _ based alike
    exact .kept based ⟨same, alike⟩
  · simp only [List.forall_mem_append, Option.mem_toList, and_iff_right based]
    rfl

end Functions

/-! Functions as they are loaded. -/
section Loaded

structure CfiEntry.Rebased (entry rebased : CfiEntry) : Prop where
  baseless : entry.cie.fdeEncoding.Baseless
  cie : entry.cie.impersonal = rebased.cie.impersonal
  code : entry.fde.SameCode rebased.fde
  kind : rebased.kind = entry.kind
  bias : rebased.bias = entry.bias
  endian : rebased.endian = entry.endian
  bases : entry.bases.Rebased rebased.bases

variable {entry rebased : CfiEntry} (rebase : entry.Rebased rebased)

include rebase

theorem start_rebased : rebased.start = entry.start := by
  have start : rebased.fde.start = entry.fde.start := (congrArg Fde.start rebase.code :)
  rw [CfiEntry.start, CfiEntry.start, start, rebase.bias]

theorem covers_rebased (pc : UInt64) : rebased.Covers pc ↔ entry.Covers pc := by
  have length : rebased.fde.length = entry.fde.length := (congrArg Fde.length rebase.code :)
  rw [CfiEntry.Covers, CfiEntry.Covers, start_rebased rebase, length]

/-- Nothing in a program is relative to the text or the data, for an address in it is stored as those of
functions are. -/
theorem instruction_rebased : readInstruction rebased.operandFormat = readInstruction entry.operandFormat := by
  have encoding : rebased.cie.fdeEncoding = entry.cie.fdeEncoding := impersonal_encoding rebase.cie
  have size : rebased.cie.addressSize = entry.cie.addressSize :=
    (congrArg Cie.addressSize rebase.cie.symm :)
  have extended (start : Nat) (opcode : UInt8) :
      readExtended rebased.operandFormat start opcode = readExtended entry.operandFormat start opcode := by
    by_cases sets : opcode = 0x01
    · subst sets
      simp only [readExtended, CfiEntry.operandFormat, encoding, size,
        baseless_required rebase.bases _ rebase.baseless]
    · exact extended_formats entry.operandFormat rebased.operandFormat start opcode sets
  unfold readInstruction
  simp only [extended]

theorem decode_rebased (program : List UInt8) (offset : Nat) :
    rebased.decode program offset = entry.decode program offset := by
  have decoded (fuel : Nat) (cursor : Cursor) :
      decodeFrom rebased.operandFormat fuel cursor = decodeFrom entry.operandFormat fuel cursor := by
    induction fuel generalizing cursor with
    | zero => rfl
    | succ fuel ih => simp only [decodeFrom, instruction_rebased rebase, ih]
  rw [CfiEntry.decode, CfiEntry.decode, decodeProgram, decodeProgram, rebase.endian, decoded]

theorem run_rebased (target : Target) (pc : UInt64) (program : List (Except Fault Instruction))
    (state : RunState) : run target rebased pc program state = run target entry pc program state := by
  apply run_alike pc
  rw [List.forall₂_same]
  intro next _
  apply alike_imp (alike_same next)
  rintro instruction _ rfl state
  exact step_alike rebase.cie rebase.kind target (fun _ _ => rebase.bias) state

theorem execute_rebased (target : Target) (initReg : Register → RegisterRule) (pc : UInt64) :
    execute target rebased initReg pc = execute target entry initReg pc := by
  have offset : rebased.fde.offset = entry.fde.offset := (congrArg Fde.offset rebase.code :)
  have shared : rebased.initialProgram = entry.initialProgram := by
    obtain ⟨program, place⟩ := impersonal_program rebase.cie
    rw [CfiEntry.initialProgram, CfiEntry.initialProgram, decode_rebased rebase, program, place]
  have own : rebased.program = entry.program := by
    have program : rebased.fde.program = entry.fde.program := (congrArg Fde.program rebase.code :)
    have place : rebased.fde.programOffset = entry.fde.programOffset :=
      (congrArg Fde.programOffset rebase.code :)
    rw [CfiEntry.program, CfiEntry.program, decode_rebased rebase, program, place]
  apply execute_alike rebase.cie rebase.kind (start_rebased rebase) offset
  intro state
  simp only [runEntry, shared, own, run_rebased rebase]

theorem same_rebased : entry.SameAtRunTime rebased where
  offset := (congrArg Fde.offset rebase.code.symm :)
  start := (start_rebased rebase).symm
  execute target initReg pc := (execute_rebased rebase target initReg pc).symm

end Loaded

/-! Modules. -/
section Modules

def LoadedModule.rebased (module : LoadedModule) (text data : Option UInt64) : LoadedModule :=
  { module with layout := module.layout.rebased text data }

def LoadedModule.headersOf (module : LoadedModule) (area : Section) : List (Section × EntryHeader) :=
  (area.walk module.layout.endian).headers.map (area, ·)

def LoadedModule.headers (module : LoadedModule) : List (Section × EntryHeader) :=
  module.ehFrame.elim [] module.headersOf ++ module.debugFrame.elim [] module.headersOf

/-- The entry that decides a lookup: of those with a function that covers the address, the last one. -/
def LoadedModule.deciding (module : LoadedModule) (pc : UInt64) : Option (Section × EntryHeader) :=
  module.headers.reverse.find? fun place =>
    (module.functionAt place.1 place.2).any (·.Covers pc)

theorem functions_headers (module : LoadedModule) :
    module.functions = module.headers.filterMap fun place => module.functionAt place.1 place.2 := by
  have each (area : Section) : module.functionsOf area =
      (module.headersOf area).filterMap fun place => module.functionAt place.1 place.2 := by
    rw [LoadedModule.headersOf, List.filterMap_map]
    rfl
  unfold LoadedModule.functions LoadedModule.headers
  rw [List.filterMap_append, funext each]
  rcases module.ehFrame with _ | ehFrame <;> rcases module.debugFrame with _ | debugFrame <;> rfl

theorem find_deciding (module : LoadedModule) (pc : UInt64) :
    module.index.1.find pc = (module.deciding pc).bind fun place => module.functionAt place.1 place.2 := by
  rw [module_find, functions_headers, ← List.filterMap_reverse, List.find?_filterMap]
  rfl

-- The first item with the one property is the first with the other just if each of the two has both.
theorem find_same {p q : α → Bool} (xs : List α) :
    xs.find? p = xs.find? q ↔ (∀ x ∈ xs.find? p, q x) ∧ ∀ x ∈ xs.find? q, p x := by
  constructor
  · intro same
    refine ⟨fun x found => ?_, fun x found => ?_⟩
    · exact List.find?_some (same ▸ found)
    · exact List.find?_some (same ▸ found)
  · rintro ⟨first, second⟩
    induction xs with
    | nil => rfl
    | cons x rest ih =>
        rw [List.find?_cons, List.find?_cons] at *
        cases one : p x <;> cases other : q x <;> simp_all

variable (module : LoadedModule) (text data : Option UInt64)

/-- Other bases than those that the function was read with: it is read with them, too, or is lost. -/
theorem function_rebased {area : Section} {header : EntryHeader} {f : CfiEntry}
    (found : module.functionAt area header = some f) (baseless : f.cie.fdeEncoding.Baseless) :
    (header.KeptBased area module.layout text data →
      ∃ g, (module.rebased text data).functionAt area header = some g ∧ f.Rebased g) ∧
    (¬header.KeptBased area module.layout text data →
      (module.rebased text data).functionAt area header = none) := by
  obtain ⟨cie, fde, described, code, rfl⟩ := function_at_some found
  have function : header.isCie area.kind = false := by
    by_contra shared
    rw [LoadedModule.functionAt, if_pos (by simpa using shared)] at found
    cases found
  have hinges := described_hinges area module.layout text data described baseless
  have layout : (module.rebased text data).layout = module.layout.rebased text data := rfl
  unfold LoadedModule.functionAt
  rw [function, layout]
  rw [described] at hinges
  generalize header.described area (module.layout.rebased text data) = result at hinges
  cases hinges with
  | lost fails => exact ⟨fun holds => absurd holds fails, fun _ => rfl⟩
  | @kept _ answer holds alike =>
      obtain ⟨cie', fde'⟩ := answer
      have length : fde'.length = fde.length := (congrArg Fde.length alike.2 :)
      have start : fde'.start = fde.start := (congrArg Fde.start alike.2 :)
      refine ⟨fun _ => ⟨(module.rebased text data).loaded area cie' fde', ?_, ?_⟩, fun fails => absurd holds fails⟩
      · simp only [length, code, Bool.false_eq_true, ↓reduceIte]
      · refine ⟨baseless, alike.1, alike.2, rfl, rfl, rfl, ?_⟩
        simp only [PointerBases.Rebased, LoadedModule.loaded, start]
        rfl

theorem rebased_own : module.rebased module.layout.textBase module.layout.dataBase = module := rfl

/-- A function is read with bases in which every pointer that is kept of it has its base. -/
theorem found_based {area : Section} {header : EntryHeader} {f : CfiEntry}
    (found : module.functionAt area header = some f) (baseless : f.cie.fdeEncoding.Baseless) :
    header.KeptBased area module.layout module.layout.textBase module.layout.dataBase := by
  by_contra fails
  have lost := (function_rebased module _ _ found baseless).2 fails
  rw [rebased_own, found] at lost
  cases lost

variable {module text data}

theorem deciding_function {pc : UInt64} {place : Section × EntryHeader}
    (decides : place ∈ module.deciding pc) :
    ∃ f ∈ module.functions, module.functionAt place.1 place.2 = some f ∧ f.Covers pc := by
  have covers := List.find?_some decides
  have member := List.mem_reverse.mp (List.mem_of_find?_eq_some decides)
  obtain ⟨f, found, covering⟩ := (Option.any_eq_true _ _).mp covers
  refine ⟨f, ?_, found, of_decide_eq_true covering⟩
  rw [functions_headers]
  exact List.mem_filterMap.mpr ⟨place, member, found⟩

/-- With other bases, the deciding entry has a function that covers the address just if all that is kept of it
has its base. -/
theorem deciding_covers {pc : UInt64} {place : Section × EntryHeader}
    (baseless : ∀ cie ∈ module.index.1.cies, cie.fdeEncoding.Baseless) (decides : place ∈ module.deciding pc) :
    ((module.rebased text data).functionAt place.1 place.2).any (·.Covers pc) ↔
      place.2.KeptBased place.1 module.layout text data := by
  obtain ⟨f, member, found, covering⟩ := deciding_function decides
  obtain ⟨kept, lost⟩ := function_rebased module text data found (baseless _ (function_cie_read module f member))
  constructor
  · intro covers
    by_contra fails
    rw [lost fails] at covers
    cases covers
  · intro holds
    obtain ⟨g, found', rebase⟩ := kept holds
    rw [found', Option.any_some, decide_eq_true_iff]
    exact (covers_rebased rebase pc).mpr covering

/-- A table with the one index among others finds what it finds with the other one, if the two find the same. -/
theorem among_others {one other : CfiIndex} {pc : UInt64} (older newer : List CfiIndex)
    (same : Option.Rel CfiEntry.SameAtRunTime (one.find pc) (other.find pc)) :
    Option.Rel CfiEntry.SameAtRunTime (CfiTable.find ⟨older ++ one :: newer⟩ pc)
      (CfiTable.find ⟨older ++ other :: newer⟩ pc) := by
  have refl (found : Option CfiEntry) : Option.Rel CfiEntry.SameAtRunTime found found := by
    cases found with
    | none => exact .none
    | some entry => exact .some ⟨rfl, rfl, fun _ _ _ => rfl⟩
  simp only [CfiTable.find, List.reverse_append, List.reverse_cons, List.append_assoc, List.findSome?_append]
  cases newer.reverse.findSome? (·.find pc) with
  | some found => exact refl (some found)
  | none =>
      simp only [List.findSome?_cons, Option.none_or]
      generalize one.find pc = found, other.find pc = found' at same
      cases same with
      | none => exact refl _
      | some same => exact .some same

/-- Both times the same entry decides just if, each time, all that is kept of the deciding entry has its base
the other time, too. -/
theorem deciding_same (baseless : ∀ cie ∈ module.index.1.cies, cie.fdeEncoding.Baseless)
    (baseless' : ∀ cie ∈ (module.rebased text data).index.1.cies, cie.fdeEncoding.Baseless) (pc : UInt64) :
    module.deciding pc = (module.rebased text data).deciding pc ↔
      (∀ place ∈ module.deciding pc, place.2.KeptBased place.1 module.layout text data) ∧
      ∀ place ∈ (module.rebased text data).deciding pc, place.2.KeptBased place.1
        (module.rebased text data).layout module.layout.textBase module.layout.dataBase := by
  have headers : (module.rebased text data).headers = module.headers := rfl
  rw [LoadedModule.deciding, LoadedModule.deciding, headers, find_same]
  apply and_congr
  · exact forall₂_congr fun place decides => deciding_covers baseless decides
  · exact forall₂_congr fun place decides => deciding_covers baseless' decides

/-- If the same entry decides both times, what is found cannot be told apart at run time. -/
theorem find_rebased (baseless : ∀ cie ∈ module.index.1.cies, cie.fdeEncoding.Baseless) {pc : UInt64}
    (same : module.deciding pc = (module.rebased text data).deciding pc) :
    Option.Rel CfiEntry.SameAtRunTime (module.index.1.find pc)
      ((module.rebased text data).index.1.find pc) := by
  rw [find_deciding, find_deciding, ← same]
  cases decides : module.deciding pc with
  | none => exact .none
  | some place =>
      obtain ⟨f, member, found, -⟩ := deciding_function decides
      have whole := baseless _ (function_cie_read module f member)
      have covers := List.find?_some (same.symm.trans decides)
      obtain ⟨g, found', rebase⟩ := (function_rebased module text data found whole).1
        ((deciding_covers baseless decides).mp covers)
      rw [Option.bind_some, Option.bind_some, found, found']
      exact .some (same_rebased rebase)

end Modules

/-- Let the bases of text and data be given in two ways, and let no common entry that is read with them store
the addresses of functions relative to one of them. A function that is read the one way is the same at run time
the other way if every pointer that is kept of it has its base there, too, and is not read otherwise. For an
address, the same entry decides both times just if this holds of both deciding entries, and then what is found,
in whatever table the module is, cannot be told apart at run time. It holds if each base is given both times
or neither time. -/
theorem kept_pointers_exact (module : LoadedModule) (text data : Option UInt64)
    (baseless : ∀ cie, cie ∈ module.index.1.cies ∨ cie ∈ (module.rebased text data).index.1.cies →
      cie.fdeEncoding.Baseless) :
    (∀ place ∈ module.headers, ∀ f, module.functionAt place.1 place.2 = some f →
      (place.2.KeptBased place.1 module.layout text data →
        ∃ g, (module.rebased text data).functionAt place.1 place.2 = some g ∧ f.SameAtRunTime g) ∧
      (¬place.2.KeptBased place.1 module.layout text data →
        (module.rebased text data).functionAt place.1 place.2 = none)) ∧
    ∀ pc,
      (module.deciding pc = (module.rebased text data).deciding pc ↔
        (∀ place ∈ module.deciding pc, place.2.KeptBased place.1 module.layout text data) ∧
        ∀ place ∈ (module.rebased text data).deciding pc, place.2.KeptBased place.1
          (module.rebased text data).layout module.layout.textBase module.layout.dataBase) ∧
      (module.deciding pc = (module.rebased text data).deciding pc → ∀ older newer,
        Option.Rel CfiEntry.SameAtRunTime (CfiTable.find ⟨older ++ module.index.1 :: newer⟩ pc)
          (CfiTable.find ⟨older ++ (module.rebased text data).index.1 :: newer⟩ pc)) ∧
      (text.isSome = module.layout.textBase.isSome → data.isSome = module.layout.dataBase.isSome →
        module.deciding pc = (module.rebased text data).deciding pc) := by
  have first : ∀ cie ∈ module.index.1.cies, cie.fdeEncoding.Baseless := fun cie read => baseless cie (.inl read)
  have second : ∀ cie ∈ (module.rebased text data).index.1.cies, cie.fdeEncoding.Baseless :=
    fun cie read => baseless cie (.inr read)
  constructor
  · intro place member f found
    have read : f ∈ module.functions := by
      rw [functions_headers]
      exact List.mem_filterMap.mpr ⟨place, member, found⟩
    obtain ⟨kept, lost⟩ := function_rebased module text data found (first _ (function_cie_read module f read))
    refine ⟨fun holds => ?_, lost⟩
    obtain ⟨g, found', rebase⟩ := kept holds
    exact ⟨g, found', same_rebased rebase⟩
  intro pc
  refine ⟨deciding_same first second pc, fun same older newer => ?_, fun givenText givenData => ?_⟩
  · exact among_others older newer (find_rebased first same)
  · refine (deciding_same first second pc).mpr ⟨fun place decides => ?_, fun place decides => ?_⟩
    · obtain ⟨f, member, found, -⟩ := deciding_function decides
      have own := found_based module found (first _ (function_cie_read _ f member))
      exact fun encoding kept => based_given (own encoding kept) givenText givenData
    · obtain ⟨f, member, found, -⟩ := deciding_function decides
      have own := found_based _ found (second _ (function_cie_read _ f member))
      exact fun encoding kept => based_given (own encoding kept) givenText.symm givenData.symm

def textRelativePersonality : List UInt8 := [
  -- common entry: a personality of four bytes, addresses in four signed bytes, relative to themselves
  0x18, 0x00, 0x00, 0x00, 0x00, 0x00, 0x00, 0x00,
  0x01, 0x7a, 0x50, 0x52, 0x00, 0x01, 0x78, 0x10,
  0x06, 0x23, 0x00, 0x05, 0x00, 0x00, 0x1b, 0x0c,
  0x07, 0x08, 0x90, 0x01,
  -- function at 0x1000
  0x10, 0x00, 0x00, 0x00, 0x20, 0x00, 0x00, 0x00,
  0xdc, 0xef, 0xff, 0xff, 0x00, 0x01, 0x00, 0x00,
  0x00, 0x44, 0x0e, 0x10]

def personalModule (text : Option UInt64) : LoadedModule :=
  .ofEhFrame "sample" { textBase := text } textRelativePersonality 0x2000 0

theorem kept_pointers_exact_based :
    (∀ cie, cie ∈ (personalModule (some 0x400000)).index.1.cies ∨
      cie ∈ ((personalModule (some 0x400000)).rebased (some 0x500000) none).index.1.cies →
        cie.fdeEncoding.Baseless) ∧
    Option.Rel CfiEntry.SameAtRunTime ((personalModule (some 0x400000)).index.1.find 0x1004)
      (((personalModule (some 0x400000)).rebased (some 0x500000) none).index.1.find 0x1004) ∧
    ((personalModule (some 0x400000)).index.1.find 0x1004).map (·.start) = some 0x1000 := by
  have baseless : ∀ cie, cie ∈ (personalModule (some 0x400000)).index.1.cies ∨
      cie ∈ ((personalModule (some 0x400000)).rebased (some 0x500000) none).index.1.cies →
        cie.fdeEncoding.Baseless := by
    have read : ∀ cie ∈ (personalModule (some 0x400000)).index.1.cies ++
        ((personalModule (some 0x400000)).rebased (some 0x500000) none).index.1.cies,
          cie.fdeEncoding.Baseless := by decide +kernel
    intro cie either
    exact read cie (Array.mem_append.mpr either)
  obtain ⟨-, found, given⟩ := (kept_pointers_exact _ (some 0x500000) none baseless).2 0x1004
  have same := found (given rfl rfl) [] []
  exact ⟨baseless, by simpa [CfiTable.find] using same, by decide +kernel⟩

/-- With no base of the text the function is lost, though its address is relative to itself: its common entry
cannot be read for the personality. -/
theorem personality_decides :
    (∀ cie ∈ (personalModule (some 0x400000)).index.1.cies, cie.fdeEncoding.Baseless) ∧
    (∀ cie ∈ (personalModule none).index.1.cies, cie.fdeEncoding.Baseless) ∧
    personalModule none = (personalModule (some 0x400000)).rebased none none ∧
    ((CfiTable.mk [(personalModule (some 0x400000)).index.1]).find 0x1004).map (·.start) = some 0x1000 ∧
    ((CfiTable.mk [(personalModule none).index.1]).find 0x1004).map (·.start) = none := by
  refine ⟨by decide +kernel, by decide +kernel, rfl, by decide +kernel, by decide +kernel⟩

end CallFrame
