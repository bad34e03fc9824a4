import CallFrame.Arch
import CallFrame.Interpreter
import CallFrame.Proofs.DegradedRows
import CallFrame.Proofs.IndexLookup
import CallFrame.Proofs.PlacelessReading

/-!
Position independence. Pointers that are relative to their own place move with the section that holds
them. If all functions of a section are stored so, it makes no difference to what is found at run time
whether the section is known at its run-time address, or at another address with the way from there as
bias. The two readings of the section go in lockstep: they differ in addresses alone, each by the same
displacement.
-/

namespace CallFrame

/-! Two readings of the same bytes. -/
section Lockstep

/-- From every cursor the two steps leave the same one, with related answers or the same fault. -/
def Lockstep (R : α → β → Prop) (one : ReadM α) (other : ReadM β) : Prop :=
  ∀ cursor, Alike R (one.run cursor).1 (other.run cursor).1 ∧
    (one.run cursor).2 = (other.run cursor).2

theorem lockstep_same (read : ReadM α) : Lockstep Eq read read :=
  fun _ => ⟨alike_same _, rfl⟩

theorem lockstep_pure {R : α → β → Prop} {one : α} {other : β} (related : R one other) :
    Lockstep R (pure one) (pure other) :=
  fun _ => abreast_pure related rfl

theorem lockstep_throw {R : α → β → Prop} (fault : Fault) : Lockstep R (throw fault) (throw fault) :=
  fun _ => abreast_throw fault rfl

theorem lockstep_bind {R : α → β → Prop} {S : γ → δ → Prop} {one : ReadM α} {other : ReadM β}
    {follow : α → ReadM γ} {follow' : β → ReadM δ} (first : Lockstep R one other)
    (rest : ∀ value value', R value value' → Lockstep S (follow value) (follow' value')) :
    Lockstep S (one >>= follow) (other >>= follow') := by
  intro cursor
  apply abreast_bind (first cursor)
  rintro value value' after _ - related rfl
  exact rest value value' related after

/-- The two steps begin with the same one. -/
theorem lockstep_then {S : γ → δ → Prop} (read : ReadM α) {follow : α → ReadM γ} {follow' : α → ReadM δ}
    (rest : ∀ value, Lockstep S (follow value) (follow' value)) :
    Lockstep S (read >>= follow) (read >>= follow') := by
  apply lockstep_bind (lockstep_same read)
  rintro value _ rfl
  exact rest value

theorem lockstep_lift {R : α → β → Prop} {one : Except Fault α} {other : Except Fault β}
    (alike : Alike R one other) : Lockstep R (liftM one : ReadM α) (liftM other : ReadM β) :=
  fun _ => abreast_lift alike rfl

theorem lockstep_imp {R S : α → β → Prop} {one : ReadM α} {other : ReadM β} (steps : Lockstep R one other)
    (weaker : ∀ value value', R value value' → S value value') : Lockstep S one other :=
  fun cursor => abreast_imp (steps cursor) weaker

theorem lockstep_value {R : α → β → Prop} {one : ReadM α} {other : ReadM β} (steps : Lockstep R one other)
    (cursor : Cursor) : Alike R (one.value cursor) (other.value cursor) :=
  (steps cursor).1

end Lockstep

/-! Pointers. -/
section Pointers

variable {displacement : UInt64}

theorem add_displaced (base value : UInt64) : base + displacement + value = base + value + displacement := by
  rw [UInt64.add_assoc, UInt64.add_comm displacement, ← UInt64.add_assoc]

structure PointerBases.Displaced (displacement : UInt64) (bases displaced : PointerBases) : Prop where
  place : displaced.sectionAddress = bases.sectionAddress + displacement
  text : displaced.text = bases.text
  data : displaced.data = bases.data
  function : displaced.function.isSome = bases.function.isSome

/-- What a pointer of the encoding becomes in a displaced section: one that is relative to itself moves,
and an absolute one does not. -/
structure Encoding.Moves (encoding : Encoding) (displacement : UInt64) (size : UInt8)
    (pointer moved : Option UInt64) : Prop where
  present : moved.isSome = pointer.isSome
  absolute : encoding.application = .ok .absolute → moved = pointer
  relative : encoding.application = .ok .pcRelative → size = 8 → moved = pointer.map (· + displacement)

theorem omitted_application : Encoding.omitted.application = .error (.unknownPointerApplication 0x70) := by
  decide +kernel

structure PointerApplication.Moves (application : PointerApplication) (displacement : UInt64)
    (base moved : UInt64) : Prop where
  absolute : application = .absolute → moved = base
  relative : application = .pcRelative → moved = base + displacement

theorem base_alike (application : PointerApplication) (field : UInt64) {bases displaced : PointerBases}
    (displace : bases.Displaced displacement displaced) :
    Alike (application.Moves displacement) (bases.base field application)
      (displaced.base (field + displacement) application) := by
  cases application with
  | absolute => exact .ok ⟨fun _ => rfl, by rintro ⟨⟩⟩
  | aligned => exact .ok ⟨fun _ => rfl, by rintro ⟨⟩⟩
  | pcRelative => exact .ok ⟨by rintro ⟨⟩, fun _ => rfl⟩
  | textRelative =>
      simp only [PointerBases.base, displace.text]
      cases bases.text with
      | none => exact .error _
      | some base => exact .ok ⟨by rintro ⟨⟩, by rintro ⟨⟩⟩
  | dataRelative =>
      simp only [PointerBases.base, displace.data]
      cases bases.data with
      | none => exact .error _
      | some base => exact .ok ⟨by rintro ⟨⟩, by rintro ⟨⟩⟩
  | functionRelative =>
      have same := displace.function
      simp only [PointerBases.base]
      cases known : bases.function <;> cases known' : displaced.function <;> rw [known, known'] at same
      · exact .error _
      · cases same
      · cases same
      · exact .ok ⟨by rintro ⟨⟩, by rintro ⟨⟩⟩

theorem wrap_moves {encoding : Encoding} {application : PointerApplication}
    (applied : encoding.application = .ok application) (size : UInt8) (value : UInt64) {base moved : UInt64}
    (moves : application.Moves displacement base moved) :
    encoding.Moves displacement size (some (wrapAddress size (base + value)))
      (some (wrapAddress size (moved + value))) where
  present := rfl
  absolute plain := by
    rw [applied] at plain
    rw [moves.absolute (Except.ok.inj plain)]
  relative itself whole := by
    rw [applied] at itself
    rw [moves.relative (Except.ok.inj itself), whole, add_displaced]
    rfl

theorem pointer_lockstep (encoding : Encoding) (size : UInt8) {bases displaced : PointerBases}
    (displace : bases.Displaced displacement displaced) :
    Lockstep (encoding.Moves displacement size) (readPointer encoding size bases)
      (readPointer encoding size displaced) := by
  rw [read_pointer_stored, read_pointer_stored]
  split
  next omitted =>
    apply lockstep_pure
    rw [omitted]
    constructor <;> simp [omitted_application]
  apply lockstep_then
  rintro ⟨place, value⟩
  cases applied : encoding.application with
  | error fault =>
      simp only [origin_fails applied]
      exact lockstep_throw fault
  | ok application =>
      have moved : displaced.sectionAddress + place = bases.sectionAddress + place + displacement := by
        rw [displace.place, add_displaced]
      simp only [origin_applied applied, moved]
      apply lockstep_bind (lockstep_lift (base_alike application (bases.sectionAddress + place) displace))
      intro base moved moves
      exact lockstep_pure (wrap_moves applied size value moves)

end Pointers

/-! Common entries. They have one pointer, to the personality, and nothing depends on it. -/
section CommonEntries

variable {displacement : UInt64}

def Augmentation.impersonal (aug : Augmentation) : Augmentation := { aug with personality := none }

def Cie.impersonal (cie : Cie) : Cie :=
  { cie with augmentation := cie.augmentation.map Augmentation.impersonal }

theorem augmentation_lockstep (size : UInt8) (letters : List Char) {bases displaced : PointerBases}
    (displace : bases.Displaced displacement displaced) (aug aug' : Augmentation)
    (same : aug.impersonal = aug'.impersonal) :
    Lockstep (fun one other => one.impersonal = other.impersonal)
      (readAugmentation size bases letters aug) (readAugmentation size displaced letters aug') := by
  induction letters generalizing aug aug' with
  | nil => exact lockstep_pure same
  | cons letter letters ih =>
      have fields := Augmentation.mk.inj same
      by_cases lsda : letter = 'L'
      · subst lsda
        apply lockstep_then
        intro encoding
        apply ih
        simp [Augmentation.impersonal, fields]
      by_cases personality : letter = 'P'
      · subst personality
        apply lockstep_then
        intro encoding
        apply lockstep_bind (pointer_lockstep _ size displace)
        intro pointer moved moves
        apply ih
        simp [Augmentation.impersonal, fields]
      by_cases fde : letter = 'R'
      · subst fde
        apply lockstep_then
        intro encoding
        apply ih
        simp [Augmentation.impersonal, fields]
      by_cases signal : letter = 'S'
      · subst signal
        apply ih
        simp [Augmentation.impersonal, fields]
      · rw [readAugmentation, readAugmentation]
        · exact lockstep_pure same
        -- a letter that is not known ends the reading
        all_goals
          rintro _ ⟨⟩
          contradiction

theorem in_block_lockstep {R : α → β → Prop} {one : ReadM α} {other : ReadM β} (steps : Lockstep R one other) :
    Lockstep R (readInBlock one) (readInBlock other) := by
  apply lockstep_then
  intro block
  apply lockstep_then
  intro after
  exact lockstep_lift (lockstep_value steps _)

theorem augmentation_part_lockstep (text : String) (size : UInt8) {bases displaced : PointerBases}
    (displace : bases.Displaced displacement displaced) :
    Lockstep (fun one other => one.map Augmentation.impersonal = other.map Augmentation.impersonal)
      (readAugmentationPart text size bases) (readAugmentationPart text size displaced) := by
  unfold readAugmentationPart
  split
  next letters _ =>
    rw [map_eq_pure_bind, map_eq_pure_bind]
    apply lockstep_bind (in_block_lockstep (augmentation_lockstep size letters displace {} {} rfl))
    intro one other same
    exact lockstep_pure (congrArg some same)
  · exact lockstep_pure rfl
  · exact lockstep_pure rfl
  · exact lockstep_throw _

variable {area : Section} {layout : Layout}

def Section.displaced (area : Section) (displacement : UInt64) : Section :=
  { area with address := area.address + displacement }

theorem section_displaced (area : Section) (layout : Layout) (displacement : UInt64) :
    (area.bases layout).Displaced displacement ((area.displaced displacement).bases layout) :=
  ⟨rfl, rfl, rfl, rfl⟩

theorem read_cie_lockstep (offset : Nat) (area : Section) (layout : Layout) (displacement : UInt64) :
    Lockstep (fun one other => one.impersonal = other.impersonal) (readCie offset area layout)
      (readCie offset (area.displaced displacement) layout) := by
  have displace := section_displaced area layout displacement
  unfold readCie
  apply lockstep_then
  intro version
  rw [show (area.displaced displacement).kind = area.kind from rfl]
  split
  · exact lockstep_throw _
  iterate 5
    apply lockstep_then
    intro _
  apply lockstep_bind (augmentation_part_lockstep _ _ displace)
  intro one other same
  apply lockstep_then
  intro rest
  apply lockstep_pure
  simp [Cie.impersonal, same]

theorem cie_alike (area : Section) (layout : Layout) (displacement : UInt64) (offset : Nat) :
    Alike (fun one other => one.impersonal = other.impersonal) (area.cie layout offset)
      ((area.displaced displacement).cie layout offset) := by
  have headers : (area.displaced displacement).header layout.endian offset =
      area.header layout.endian offset := rfl
  unfold Section.cie
  rw [headers]
  cases area.header layout.endian offset with
  | error fault => exact .error fault
  | ok found =>
      cases found with
      | none => exact .error _
      | some header =>
          change Alike _ (header.cie area layout) (header.cie (area.displaced displacement) layout)
          unfold EntryHeader.cie
          rw [show (area.displaced displacement).kind = area.kind from rfl]
          split
          · exact lockstep_value (read_cie_lockstep header.offset area layout displacement) header.body
          · exact .error _

end CommonEntries

/-! Functions. -/
section Functions

variable {displacement : UInt64}

def Cie.Relative (cie : Cie) : Prop :=
  cie.addressSize = 8 ∧ cie.fdeEncoding.application = .ok .pcRelative

/-- What a function becomes in a displaced section. Its code moves if it is stored relative to itself,
and so may its language specific data. -/
structure Fde.Moves (displacement : UInt64) (cie : Cie) (fde moved : Fde) : Prop where
  same : moved = { fde with start := moved.start, lsda := moved.lsda }
  start : cie.Relative → moved.start = fde.start + displacement

theorem impersonal_encoding {cie other : Cie} (same : cie.impersonal = other.impersonal) :
    other.fdeEncoding = cie.fdeEncoding := by
  have kept (cie : Cie) : cie.impersonal.fdeEncoding = cie.fdeEncoding := by
    cases aug : cie.augmentation <;> simp [Cie.impersonal, Cie.fdeEncoding, aug, Augmentation.impersonal]
  rw [← kept other, ← same, kept cie]

theorem impersonal_signal {cie other : Cie} (same : cie.impersonal = other.impersonal) :
    other.isSignalFrame = cie.isSignalFrame := by
  have kept (cie : Cie) : cie.impersonal.isSignalFrame = cie.isSignalFrame := by
    cases aug : cie.augmentation <;> simp [Cie.impersonal, Cie.isSignalFrame, aug, Augmentation.impersonal]
  rw [← kept other, ← same, kept cie]

theorem impersonal_program {cie other : Cie} (same : cie.impersonal = other.impersonal) :
    other.program = cie.program ∧ other.programOffset = cie.programOffset :=
  ⟨(congrArg Cie.program same.symm :), (congrArg Cie.programOffset same.symm :)⟩

theorem impersonal_augmentation {cie other : Cie} (same : cie.impersonal = other.impersonal) :
    other.augmentation.map Augmentation.impersonal = cie.augmentation.map Augmentation.impersonal :=
  congrArg Cie.augmentation same.symm

theorem lsda_lockstep (size : UInt8) {bases displaced : PointerBases}
    (displace : bases.Displaced displacement displaced) (aug aug' : Option Augmentation)
    (same : aug'.map Augmentation.impersonal = aug.map Augmentation.impersonal) :
    Lockstep (fun _ _ => True) (readLsda size bases aug) (readLsda size displaced aug') := by
  cases aug <;> cases aug'
  · exact lockstep_pure trivial
  · cases same
  · cases same
  next aug aug' =>
    have same : aug'.impersonal = aug.impersonal := Option.some.inj same
    have encoding : aug'.lsdaEncoding = aug.lsdaEncoding := (congrArg Augmentation.lsdaEncoding same :)
    apply in_block_lockstep
    rw [encoding]
    cases aug.lsdaEncoding with
    | none => exact lockstep_pure trivial
    | some encoding =>
        exact lockstep_imp (pointer_lockstep encoding.direct size displace) fun _ _ _ => trivial

theorem required_lockstep (absent : Fault) (encoding : Encoding) (size : UInt8)
    {bases displaced : PointerBases} (displace : bases.Displaced displacement displaced) :
    Lockstep (fun pointer moved => encoding.Moves displacement size (some pointer) (some moved))
      (readRequired absent encoding size bases) (readRequired absent encoding size displaced) := by
  apply lockstep_bind (pointer_lockstep encoding size displace)
  intro pointer moved moves
  have present := moves.present
  cases pointer <;> cases moved
  · exact lockstep_throw _
  · cases present
  · cases present
  · exact lockstep_pure moves

theorem read_fde_lockstep (offset : Nat) {cie other : Cie} (same : cie.impersonal = other.impersonal)
    {bases displaced : PointerBases} (displace : bases.Displaced displacement displaced) :
    Lockstep (Fde.Moves displacement cie) (readFde offset cie bases) (readFde offset other displaced) := by
  have encoding := impersonal_encoding same
  have size : other.addressSize = cie.addressSize := (congrArg Cie.addressSize same.symm :)
  have offset' : other.offset = cie.offset := (congrArg Cie.offset same.symm :)
  unfold readFde
  rw [encoding, size]
  apply lockstep_bind (required_lockstep _ cie.fdeEncoding cie.addressSize displace)
  intro start moved moves
  apply lockstep_bind (required_lockstep _ cie.fdeEncoding.formatOnly cie.addressSize displace)
  intro length length' unmoved
  have same_length : length' = length := Option.some.inj (unmoved.absolute (format_only_absolute _))
  have inside : PointerBases.Displaced displacement { bases with function := some start }
      { displaced with function := some moved } := ⟨displace.place, displace.text, displace.data, rfl⟩
  apply lockstep_bind
    (lsda_lockstep cie.addressSize inside cie.augmentation other.augmentation (impersonal_augmentation same))
  intro lsda lsda' _
  apply lockstep_then
  intro rest
  apply lockstep_pure
  constructor
  · rw [same_length, offset']
  · intro relative
    exact Option.some.inj (moves.relative relative.2 relative.1)

theorem described_alike (header : EntryHeader) (area : Section) (layout : Layout) (displacement : UInt64) :
    Alike (fun one other => one.1.impersonal = other.1.impersonal ∧ one.2.Moves displacement one.1 other.2)
      (header.described area layout) (header.described (area.displaced displacement) layout) := by
  unfold EntryHeader.described
  rw [show (area.displaced displacement).kind = area.kind from rfl]
  cases header.cieOffset area.kind with
  | error fault => exact .error fault
  | ok offset =>
      change Alike _ (area.cie layout offset >>= _) ((area.displaced displacement).cie layout offset >>= _)
      have common := cie_alike area layout displacement offset
      generalize area.cie layout offset = one, (area.displaced displacement).cie layout offset = other
        at common
      cases common with
      | error fault => exact .error fault
      | @ok cie cie' same =>
          have displace := section_displaced area layout displacement
          have function := lockstep_value (read_fde_lockstep header.offset same displace) header.body
          change Alike _ (header.fde cie area layout >>= _)
            (header.fde cie' (area.displaced displacement) layout >>= _)
          unfold EntryHeader.fde
          generalize (readFde header.offset cie (area.bases layout)).value header.body = one,
            (readFde header.offset cie' ((area.displaced displacement).bases layout)).value header.body =
              other at function
          cases function with
          | error fault => exact .error fault
          | ok moves => exact .ok ⟨same, moves⟩

end Functions

/-! Instructions and their runs. -/
section Programs

variable {displacement : UInt64}

def Instruction.moved (displacement : UInt64) : Instruction → Instruction
  | .setLoc address => .setLoc (address + displacement)
  | instruction => instruction

structure OperandFormat.Displaced (displacement : UInt64) (format displaced : OperandFormat) : Prop where
  wide : format.addressSize = 8
  relative : format.encoding.application = .ok .pcRelative
  size : displaced.addressSize = format.addressSize
  encoding : displaced.encoding = format.encoding
  bases : format.bases.Displaced displacement displaced.bases

theorem extended_formats (format other : OperandFormat) (start : Nat) (opcode : UInt8)
    (noAddress : opcode ≠ 0x01) : readExtended other start opcode = readExtended format start opcode := by
  unfold readExtended
  split <;> first | rfl | contradiction

theorem extended_stays (format : OperandFormat) (start : Nat) (opcode : UInt8)
    (noAddress : opcode ≠ 0x01) :
    (readExtended format start opcode).Yields (fun i => i.moved displacement = i) := by
  intro cursor instruction read
  have elsewhere := extended_no_jump format start opcode noAddress cursor instruction read
  cases instruction with
  | setLoc address => exact absurd rfl (elsewhere address)
  | _ => rfl

theorem lockstep_stays {read : ReadM Instruction}
    (stays : read.Yields (fun i => i.moved displacement = i)) :
    Lockstep (fun i moved => moved = i.moved displacement) read read := by
  intro cursor
  refine ⟨?_, rfl⟩
  cases result : (read.run cursor).1 with
  | error fault => exact .error fault
  | ok i => exact .ok (stays cursor i result).symm

variable {format displaced : OperandFormat} (displace : format.Displaced displacement displaced)

include displace

theorem extended_lockstep (start : Nat) (opcode : UInt8) :
    Lockstep (fun i moved => moved = i.moved displacement) (readExtended format start opcode)
      (readExtended displaced start opcode) := by
  by_cases sets : opcode = 0x01
  · subst sets
    simp only [readExtended, map_eq_pure_bind]
    rw [displace.size, displace.encoding]
    apply lockstep_bind (required_lockstep _ format.encoding format.addressSize displace.bases)
    intro address address' moves
    have moved := Option.some.inj (moves.relative displace.relative displace.wide)
    exact lockstep_pure (congrArg Instruction.setLoc moved)
  · rw [extended_formats format displaced start opcode sets]
    exact lockstep_stays (extended_stays format start opcode sets)

theorem instruction_lockstep :
    Lockstep (fun i moved => moved = i.moved displacement) (readInstruction format)
      (readInstruction displaced) := by
  apply lockstep_then
  intro start
  apply lockstep_then
  intro opcode
  dsimp only
  split
  · exact lockstep_pure rfl
  · exact lockstep_then _ fun _ => lockstep_pure rfl
  · exact lockstep_pure rfl
  · exact extended_lockstep displace _ _

/-- The decoded programs differ in the locations that are set, each by the displacement. -/
theorem decode_alike (fuel : Nat) (cursor : Cursor) :
    List.Forall₂ (Alike fun i moved => moved = i.moved displacement) (decodeFrom format fuel cursor)
      (decodeFrom displaced fuel cursor) := by
  induction fuel generalizing cursor with
  | zero => exact .nil
  | succ fuel ih =>
      unfold decodeFrom
      split
      · exact .nil
      · obtain ⟨alike, left⟩ := instruction_lockstep displace cursor
        generalize (readInstruction format).run cursor = ran,
          (readInstruction displaced).run cursor = ran' at alike left
        rcases ran with ⟨result, rest⟩
        rcases ran' with ⟨result', rest'⟩
        cases left
        cases alike with
        | error fault => exact .cons (.error fault) .nil
        | ok moved => exact .cons (.ok moved) (ih rest)

end Programs

/-! Functions as they are loaded. -/
section Loaded

variable {displacement : UInt64}

/-- The same function, loaded from a displaced section: its bias makes up for the displacement. -/
structure CfiEntry.Displaced (displacement : UInt64) (entry displaced : CfiEntry) : Prop where
  relative : entry.cie.Relative
  cie : entry.cie.impersonal = displaced.cie.impersonal
  fde : entry.fde.Moves displacement entry.cie displaced.fde
  kind : displaced.kind = entry.kind
  endian : displaced.endian = entry.endian
  bases : entry.bases.Displaced displacement displaced.bases
  bias : entry.bias = displaced.bias + displacement

/-- What a step does depends on the entry for its kind and its common entry, without the personality. The bias
matters to an instruction that sets the location. -/
theorem step_alike {one other : CfiEntry} (cie : one.cie.impersonal = other.cie.impersonal)
    (kind : other.kind = one.kind) (target : Target) {instruction : Instruction}
    (bias : ∀ address, instruction = .setLoc address → other.bias = one.bias) (state : RunState) :
    step target other instruction state = step target one instruction state := by
  have code : other.cie.codeAlignment = one.cie.codeAlignment := (congrArg Cie.codeAlignment cie.symm :)
  have data : other.cie.dataAlignment = one.cie.dataAlignment := (congrArg Cie.dataAlignment cie.symm :)
  cases instruction with
  | setLoc address => simp only [step, bias address rfl]
  | _ => simp only [step, kind, code, data, signedOffset, unsignedOffset, negatedOffset]

/-- Entries that begin at the same address and have the same common entry, but for its personality, are
interpreted alike if their programs run alike. -/
theorem execute_alike {target : Target} {initReg : Register → RegisterRule} {pc : UInt64} {one other : CfiEntry}
    (cie : one.cie.impersonal = other.cie.impersonal) (kind : other.kind = one.kind)
    (start : other.start = one.start) (offset : other.fde.offset = one.fde.offset)
    (ran : ∀ state, runEntry target other pc state = runEntry target one pc state) :
    execute target other initReg pc = execute target one initReg pc := by
  have signal : other.cie.isSignalFrame = one.cie.isSignalFrame := impersonal_signal cie
  have column : other.returnColumn target = one.returnColumn target := by
    have stored : other.cie.returnColumn = one.cie.returnColumn := (congrArg Cie.returnColumn cie.symm :)
    rw [CfiEntry.returnColumn, CfiEntry.returnColumn, kind, stored]
  have seed : other.seed target initReg = one.seed target initReg := by
    rw [CfiEntry.seed, CfiEntry.seed, CfiEntry.seedCount, CfiEntry.seedCount, column, start]
  simp only [execute, column, seed, ran, start, offset, signal]

variable {entry displaced : CfiEntry} (displace : entry.Displaced displacement displaced)

include displace

theorem start_displaced : displaced.start = entry.start := by
  rw [CfiEntry.start, CfiEntry.start, displace.fde.start displace.relative, displace.bias,
    UInt64.add_comm displaced.bias, UInt64.add_assoc]

theorem covers_displaced (pc : UInt64) : displaced.Covers pc ↔ entry.Covers pc := by
  have length : displaced.fde.length = entry.fde.length := (congrArg Fde.length displace.fde.same :)
  rw [CfiEntry.Covers, CfiEntry.Covers, start_displaced displace, length]

theorem format_displaced : entry.operandFormat.Displaced displacement displaced.operandFormat where
  wide := displace.relative.1
  relative := displace.relative.2
  size := (congrArg Cie.addressSize displace.cie.symm :)
  encoding := impersonal_encoding displace.cie
  bases := displace.bases

theorem step_displaced (target : Target) (instruction : Instruction) (state : RunState) :
    step target displaced (instruction.moved displacement) state = step target entry instruction state := by
  cases instruction with
  | setLoc address =>
      simp only [step, Instruction.moved]
      rw [displace.bias, UInt64.add_comm displaced.bias, UInt64.add_assoc]
  | _ => exact step_alike displace.cie displace.kind target (by rintro _ ⟨⟩) state

theorem run_displaced (target : Target) (pc : UInt64) {program program' : List (Except Fault Instruction)}
    (alike : List.Forall₂ (Alike fun i moved => moved = i.moved displacement) program program')
    (state : RunState) : run target displaced pc program' state = run target entry pc program state := by
  apply Eq.symm
  apply run_alike pc
  apply alike.imp
  intro next next' first
  apply alike_imp first
  rintro i _ rfl state
  exact (step_displaced displace target i state).symm

theorem programs_displaced :
    List.Forall₂ (Alike fun i moved => moved = i.moved displacement) entry.initialProgram
        displaced.initialProgram ∧
      List.Forall₂ (Alike fun i moved => moved = i.moved displacement) entry.program displaced.program := by
  have format := format_displaced displace
  have ⟨shared, sharedAt⟩ := impersonal_program displace.cie
  have own : displaced.fde.program = entry.fde.program := (congrArg Fde.program displace.fde.same :)
  have ownAt : displaced.fde.programOffset = entry.fde.programOffset :=
    (congrArg Fde.programOffset displace.fde.same :)
  unfold CfiEntry.initialProgram CfiEntry.program CfiEntry.decode decodeProgram
  rw [shared, sharedAt, own, ownAt, displace.endian]
  exact ⟨decode_alike format _ _, decode_alike format _ _⟩

theorem execute_displaced (target : Target) (initReg : Register → RegisterRule) (pc : UInt64) :
    execute target displaced initReg pc = execute target entry initReg pc := by
  have offset : displaced.fde.offset = entry.fde.offset := (congrArg Fde.offset displace.fde.same :)
  apply execute_alike displace.cie displace.kind (start_displaced displace) offset
  intro state
  obtain ⟨shared, own⟩ := programs_displaced displace
  rw [runEntry, runEntry, run_displaced displace target pc shared]
  split
  · rfl
  · exact run_displaced displace target pc own _

end Loaded

/-! Modules. -/
section Modules

variable {displacement : UInt64}

def LoadedModule.ofEhFrame (name : String) (layout : Layout) (data : List UInt8) (address bias : UInt64) :
    LoadedModule where
  name := name
  layout := layout
  bias := bias
  ehFrame := some { kind := .ehFrame, data, address }

theorem walk_displaced (area : Section) (endian : Endian) (displacement : UInt64) :
    (area.displaced displacement).walk endian = area.walk endian := by
  have walkFrom (fuel offset : Nat) :
      (area.displaced displacement).walkFrom endian fuel offset = area.walkFrom endian fuel offset := by
    induction fuel generalizing offset with
    | zero => rfl
    | succ fuel ih =>
        have header : (area.displaced displacement).header endian offset = area.header endian offset := rfl
        simp only [Section.walkFrom, header, ih]
  exact walkFrom _ 0

theorem function_displaced (biased placed : LoadedModule) (layout : placed.layout = biased.layout)
    (bias : biased.bias = placed.bias + displacement) (area : Section) (header : EntryHeader) :
    Option.Rel (fun f g => f.cie.Relative → f.Displaced displacement g) (biased.functionAt area header)
      (placed.functionAt (area.displaced displacement) header) := by
  unfold LoadedModule.functionAt
  rw [layout, show (area.displaced displacement).kind = area.kind from rfl]
  split
  · exact .none
  have alike := described_alike header area biased.layout displacement
  generalize header.described area biased.layout = one,
    header.described (area.displaced displacement) biased.layout = other at alike
  cases alike with
  | error fault => exact .none
  | @ok one other related =>
      obtain ⟨same, moves⟩ := related
      have length : other.2.length = one.2.length := (congrArg Fde.length moves.same :)
      simp only [length]
      split
      · exact .none
      · apply Option.Rel.some
        intro relative
        exact ⟨relative, same, moves, rfl, congrArg Layout.endian layout,
          ⟨rfl, congrArg Layout.textBase layout, congrArg Layout.dataBase layout, rfl⟩, bias⟩

-- The common entries of all functions are among those that the scan has read.
theorem function_cie_read (module : LoadedModule) (f : CfiEntry) (member : f ∈ module.functions) :
    f.cie ∈ module.index.1.cies := by
  have stands := (module_holds module).1.entries
  change f.cie ∈ module.scan.cies
  rw [← List.mem_reverse] at member
  generalize module.scan.entries = entries, module.functions.reverse = functions at stands member
  induction stands with
  | nil => cases member
  | cons first _ ih =>
      rcases List.mem_cons.mp member with rfl | later
      · exact Array.mem_of_getElem? first.cie
      · exact ih later

theorem eh_frame_functions (name : String) (layout : Layout) (data : List UInt8) (address bias : UInt64) :
    let module := LoadedModule.ofEhFrame name layout data address bias
    let area : Section := { kind := .ehFrame, data, address }
    module.functions = (area.walk layout.endian).headers.filterMap (module.functionAt area) :=
  List.append_nil _

theorem functions_displaced (name : String) (layout : Layout) (data : List UInt8)
    (address displacement : UInt64)
    (relative : ∀ cie ∈ (LoadedModule.ofEhFrame name layout data address displacement).index.1.cies,
      cie.Relative) :
    List.Forall₂ (CfiEntry.Displaced displacement)
      (LoadedModule.ofEhFrame name layout data address displacement).functions
      (LoadedModule.ofEhFrame name layout data (address + displacement) 0).functions := by
  let area : Section := { kind := .ehFrame, data, address }
  have bias : displacement = 0 + displacement := (UInt64.zero_add displacement).symm
  have listed : List.Forall₂ (fun f g => f.cie.Relative → f.Displaced displacement g)
      (LoadedModule.ofEhFrame name layout data address displacement).functions
      (LoadedModule.ofEhFrame name layout data (address + displacement) 0).functions := by
    rw [eh_frame_functions, eh_frame_functions]
    change List.Forall₂ _ ((area.walk layout.endian).headers.filterMap _)
      (((area.displaced displacement).walk layout.endian).headers.filterMap _)
    rw [walk_displaced]
    apply List.rel_filterMap (R := Eq)
    · rintro header _ rfl
      exact function_displaced (.ofEhFrame name layout data address displacement)
        (.ofEhFrame name layout data (address + displacement) 0) rfl bias area header
    · exact List.forall₂_refl _
  have read : ∀ f ∈ (LoadedModule.ofEhFrame name layout data address displacement).functions,
      f.cie.Relative := by
    intro f member
    exact relative f.cie (function_cie_read _ f member)
  refine ((List.forall₂_and_left _ _).mpr ⟨read, listed⟩).imp ?_
  rintro f g ⟨stored, displace⟩
  exact displace stored

theorem find_displaced {functions moved : List CfiEntry}
    (displace : List.Forall₂ (CfiEntry.Displaced displacement) functions moved) (pc : UInt64) :
    Option.Rel (CfiEntry.Displaced displacement) (functions.find? (·.Covers pc)) (moved.find? (·.Covers pc)) := by
  induction displace with
  | nil => exact .none
  | @cons f g rest rest' first _ ih =>
      have covers : decide (g.Covers pc) = decide (f.Covers pc) := by
        rw [decide_eq_decide]
        exact covers_displaced first pc
      rw [List.find?_cons, List.find?_cons, covers]
      cases decide (f.Covers pc) with
      | true => exact .some first
      | false => exact ih

structure CfiEntry.SameAtRunTime (one other : CfiEntry) : Prop where
  offset : one.fde.offset = other.fde.offset
  start : one.start = other.start
  execute (target : Target) (initReg : Register → RegisterRule) (pc : UInt64) :
    execute target one initReg pc = execute target other initReg pc

theorem found_same {found found' : Option CfiEntry}
    (displace : Option.Rel (CfiEntry.Displaced displacement) found found') :
    Option.Rel CfiEntry.SameAtRunTime found' found := by
  cases displace with
  | none => exact .none
  | some displace =>
      refine .some ⟨?_, start_displaced displace, execute_displaced displace⟩
      exact (congrArg Fde.offset displace.fde.same :)

end Modules

/-- Let a module have only an exception handling section, in which the addresses of functions are stored
in eight bytes and relative to themselves. Then it makes no difference to what is found for an address,
whether the section is known at its run-time address and there is no bias, or at another address and the
displacement from there is the bias: no function both times, or functions that cannot be told apart at
run time. -/
theorem bias_or_displacement (name : String) (layout : Layout) (data : List UInt8)
    (address displacement : UInt64)
    (relative : ∀ cie ∈ (LoadedModule.ofEhFrame name layout data address displacement).index.1.cies,
      cie.addressSize = 8 ∧ cie.fdeEncoding.application = .ok .pcRelative) (pc : UInt64) :
    Option.Rel CfiEntry.SameAtRunTime
      ((LoadedModule.ofEhFrame name layout data (address + displacement) 0).index.1.find pc)
      ((LoadedModule.ofEhFrame name layout data address displacement).index.1.find pc) := by
  have functions := functions_displaced name layout data address displacement relative
  rw [← List.forall₂_reverse_iff] at functions
  rw [module_find, module_find]
  exact found_same (find_displaced functions pc)

def relativeSection : List UInt8 := [
  -- common entry: addresses in four signed bytes, relative to themselves
  0x14, 0x00, 0x00, 0x00, 0x00, 0x00, 0x00, 0x00,
  0x01, 0x7a, 0x52, 0x00, 0x01, 0x78, 0x10, 0x01,
  0x1b, 0x0c, 0x07, 0x08, 0x90, 0x01, 0x00, 0x00,
  -- function at 0x1000, whose frame grows at 0x1004
  0x14, 0x00, 0x00, 0x00, 0x1c, 0x00, 0x00, 0x00,
  0xe0, 0xef, 0xff, 0xff, 0x00, 0x01, 0x00, 0x00,
  0x00, 0x01, 0xda, 0xef, 0xff, 0xff, 0x0e, 0x10]

theorem bias_or_displacement_relative :
    let biased := LoadedModule.ofEhFrame "sample" {} relativeSection 0x2000 0x7f0000
    let placed := LoadedModule.ofEhFrame "sample" {} relativeSection (0x2000 + 0x7f0000) 0
    (∀ cie ∈ biased.index.1.cies, cie.Relative) ∧
      Option.Rel CfiEntry.SameAtRunTime (placed.index.1.find 0x7f1010) (biased.index.1.find 0x7f1010) ∧
      ((placed.index.1.find 0x7f1010).map fun entry =>
        (entry.start, (execute Amd64.linux.toTarget entry (fun _ => .unspecified) 0x7f1010).1.row.cfa)) =
          some (0x7f1000, some (.registerAndOffset Amd64.rsp 16)) := by
  intro biased placed
  have read : biased.index.1.cies.toList.map (fun cie => (cie.addressSize, cie.fdeEncoding)) =
      [(8, ⟨0x1b⟩)] := by decide +kernel
  have relative : ∀ cie ∈ biased.index.1.cies, cie.Relative := by
    intro cie member
    have stored := List.mem_map_of_mem (f := fun cie : Cie => (cie.addressSize, cie.fdeEncoding))
      (Array.mem_toList_iff.mpr member)
    rw [read, List.mem_singleton, Prod.mk.injEq] at stored
    rw [Cie.Relative, stored.1, stored.2]
    exact ⟨rfl, rfl⟩
  exact ⟨relative, bias_or_displacement "sample" {} relativeSection 0x2000 0x7f0000 relative 0x7f1010,
    by decide +kernel⟩

end CallFrame
