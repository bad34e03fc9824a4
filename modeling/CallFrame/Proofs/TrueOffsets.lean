import CallFrame.Proofs.IndexLookup
import CallFrame.Proofs.JoinedPrograms
import CallFrame.Proofs.Windows

/-!
Offsets that tell the truth. The parts of an entry, its augmentation and its program are the bytes of the
section that their offsets say. So the pointers that are relative to themselves are relative to where they
are, in the entries and in their programs. The entries that a walk visits lie side by side.
-/

namespace CallFrame

/-! Entries where they stand. -/
section Entries

/-- From `here` on, the block up to `stop` holds what the augmentation letters announce. Together with what was
read before, it is `out`. A letter that is not known ends it. -/
inductive Section.Augmented (area : Section) (endian : Endian) (size : UInt8) (bases : PointerBases) (stop : Nat)
    (out : Augmentation) : (here : Nat) → List Char → Augmentation → Prop
  | lsda {here : Nat} {byte : UInt8} {letters : List Char} {aug : Augmentation}
      (stored : area.data[here]? = some byte)
      (rest : area.Augmented endian size bases stop out (here + 1) letters
        { aug with lsdaEncoding := some ⟨byte⟩ }) :
      area.Augmented endian size bases stop out here ('L' :: letters) aug
  | personality {here behind : Nat} {byte : UInt8} {letters : List Char} {aug : Augmentation}
      {personality : Option UInt64} (stored : area.data[here]? = some byte)
      (points : area.Pointer endian size bases (Encoding.mk byte).direct (here + 1) stop behind personality)
      (rest : area.Augmented endian size bases stop out behind letters
        { aug with personality, personalityIndirect := (Encoding.mk byte).isIndirect }) :
      area.Augmented endian size bases stop out here ('P' :: letters) aug
  | fde {here : Nat} {byte : UInt8} {letters : List Char} {aug : Augmentation}
      (stored : area.data[here]? = some byte)
      (rest : area.Augmented endian size bases stop out (here + 1) letters
        { aug with fdeEncoding := some ⟨byte⟩ }) :
      area.Augmented endian size bases stop out here ('R' :: letters) aug
  | signal {here : Nat} {letters : List Char} {aug : Augmentation}
      (rest : area.Augmented endian size bases stop out here letters { aug with signalFrame := true }) :
      area.Augmented endian size bases stop out here ('S' :: letters) aug
  | done {here : Nat} {letters : List Char} (unknown : ∀ letter ∈ letters.head?, letter ∉ ['L', 'P', 'R', 'S']) :
      area.Augmented endian size bases stop out here letters out

variable {area : Section} {endian : Endian} {here stop : Nat} (ordered : here ≤ stop)
  (inside : stop ≤ area.data.length)

include ordered inside

theorem augmentation_in_window {size : UInt8} {bases : PointerBases} {letters : List Char} {aug out : Augmentation}
    {rest : Cursor} (same : bases.sectionAddress = area.address)
    (ran : (readAugmentation size bases letters aug).run (area.window endian here stop) = (.ok out, rest)) :
    area.Augmented endian size bases stop out here letters aug := by
  fun_induction readAugmentation size bases letters aug generalizing here with
  | case1 letters aug ih =>
      obtain ⟨byte, _, read, ran⟩ := ReadM.run_bind_ok ran
      obtain ⟨stored, short, rfl⟩ := byte_in_window read
      exact .lsda stored (ih byte short ran)
  | case2 letters aug ih =>
      obtain ⟨byte, _, read, ran⟩ := ReadM.run_bind_ok ran
      obtain ⟨stored, short, rfl⟩ := byte_in_window read
      obtain ⟨personality, _, read, ran⟩ := ReadM.run_bind_ok ran
      obtain ⟨behind, -, short, rfl, points⟩ := pointer_in_window short inside same read
      exact .personality stored points (ih _ _ short ran)
  | case3 letters aug ih =>
      obtain ⟨byte, _, read, ran⟩ := ReadM.run_bind_ok ran
      obtain ⟨stored, short, rfl⟩ := byte_in_window read
      exact .fde stored (ih byte short ran)
  | case4 letters aug ih => exact .signal (ih ordered ran)
  | case5 letters aug noLsda noPersonality noFde noSignal =>
      cases ran
      refine .done fun letter first => ?_
      obtain ⟨rest, rfl⟩ := List.head?_eq_some_iff.mp first
      simp only [List.mem_cons, List.not_mem_nil, or_false]
      rintro (rfl | rfl | rfl | rfl)
      · exact noLsda rest rfl
      · exact noPersonality rest rfl
      · exact noFde rest rfl
      · exact noSignal rest rfl

def Section.HoldsAugmentation (area : Section) (endian : Endian) (text : String) (size : UInt8)
    (bases : PointerBases) (here stop behind : Nat) (augmentation : Option Augmentation) : Prop :=
  match text.toList with
  | 'z' :: letters => ∃ block aug, area.Block endian here stop block behind ∧ augmentation = some aug ∧
    area.Augmented endian size bases behind aug block letters {}
  | _ => behind = here ∧ augmentation = none

def Section.HoldsLsda (area : Section) (endian : Endian) (size : UInt8) (bases : PointerBases)
    (augmentation : Option Augmentation) (here stop behind : Nat) (lsda : Option UInt64) : Prop :=
  match augmentation with
  | none => behind = here ∧ lsda = none
  | some aug => ∃ block, area.Block endian here stop block behind ∧
    match aug.lsdaEncoding with
    | none => lsda = none
    | some encoding => ∃ last, area.Pointer endian size bases encoding.direct block behind last lsda

/-- From `start` to `stop` the section holds what is behind the header of this common entry. -/
structure Section.HoldsCie (area : Section) (endian : Endian) (layout : Layout) (start stop : Nat) (cie : Cie) :
    Prop where
  forward : start ≤ cie.programOffset
  inside : cie.programOffset ≤ stop
  program : cie.program = area.between cie.programOffset stop
  -- the augmentation is behind the parts that every common entry has
  augmentation : ∃ before here, (readPrelude area.kind layout).run (area.window endian start stop) =
      (.ok before, area.window endian here stop) ∧
    area.HoldsAugmentation endian cie.augmentationText cie.addressSize (area.bases layout) here stop
      cie.programOffset cie.augmentation

structure Section.HoldsFde (area : Section) (endian : Endian) (layout : Layout) (cie : Cie) (start stop : Nat)
    (fde : Fde) : Prop where
  forward : start ≤ fde.programOffset
  inside : fde.programOffset ≤ stop
  program : fde.program = area.between fde.programOffset stop
  -- one behind the other: where the function starts, how long it is, and its language specific data
  pointers : ∃ second third,
    area.Pointer endian cie.addressSize (area.bases layout) cie.fdeEncoding start stop second (some fde.start) ∧
    area.Pointer endian cie.addressSize (area.bases layout) cie.fdeEncoding.formatOnly second stop third
      (some fde.length) ∧
    area.HoldsLsda endian cie.addressSize { area.bases layout with function := some fde.start } cie.augmentation
      third stop fde.programOffset fde.lsda

theorem augmentation_part_in_window {text : String} {size : UInt8} {bases : PointerBases}
    {augmentation : Option Augmentation} {rest : Cursor} (same : bases.sectionAddress = area.address)
    (ran : (readAugmentationPart text size bases).run (area.window endian here stop) = (.ok augmentation, rest)) :
    ∃ behind, here ≤ behind ∧ behind ≤ stop ∧ rest = area.window endian behind stop ∧
      area.HoldsAugmentation endian text size bases here stop behind augmentation := by
  unfold readAugmentationPart at ran
  unfold Section.HoldsAugmentation
  split at ran
  next letters announced =>
    rw [map_eq_pure_bind] at ran
    obtain ⟨aug, _, read, ran⟩ := ReadM.run_bind_ok ran
    obtain ⟨block, behind, stands, rfl, nested⟩ := block_in_window ordered inside read
    cases ran
    have bounded := Nat.le_trans stands.inside inside
    refine ⟨behind, Nat.le_trans stands.forward stands.ordered, stands.inside, rfl, ?_⟩
    rw [announced]
    exact ⟨block, aug, stands, rfl, augmentation_in_window stands.ordered bounded same (Prod.ext nested rfl)⟩
  next nothing =>
    cases ran
    rw [nothing]
    exact ⟨here, Nat.le_refl _, ordered, rfl, rfl, rfl⟩
  next oldest =>
    cases ran
    rw [oldest]
    exact ⟨here, Nat.le_refl _, ordered, rfl, rfl, rfl⟩
  next => cases ran

theorem lsda_in_window {size : UInt8} {bases : PointerBases} {augmentation : Option Augmentation}
    {lsda : Option UInt64} {rest : Cursor} (same : bases.sectionAddress = area.address)
    (ran : (readLsda size bases augmentation).run (area.window endian here stop) = (.ok lsda, rest)) :
    ∃ behind, here ≤ behind ∧ behind ≤ stop ∧ rest = area.window endian behind stop ∧
      area.HoldsLsda endian size bases augmentation here stop behind lsda := by
  cases augmentation with
  | none =>
      cases ran
      exact ⟨here, Nat.le_refl _, ordered, rfl, rfl, rfl⟩
  | some aug =>
      obtain ⟨block, behind, stands, rfl, nested⟩ := block_in_window ordered inside ran
      have bounded := Nat.le_trans stands.inside inside
      refine ⟨behind, Nat.le_trans stands.forward stands.ordered, stands.inside, rfl, block, stands, ?_⟩
      cases announced : aug.lsdaEncoding with
      | none =>
          rw [announced] at nested
          cases nested
          rfl
      | some encoding =>
          rw [announced] at nested
          obtain ⟨last, -, -, -, points⟩ :=
            pointer_in_window stands.ordered bounded same (Prod.ext nested rfl)
          exact ⟨last, points⟩

theorem read_cie_in_window {offset : Nat} {layout : Layout} {cie : Cie}
    (read : (readCie offset area layout).value (area.window endian here stop) = .ok cie) :
    area.HoldsCie endian layout here stop cie := by
  rcases ran : (readCie offset area layout).run (area.window endian here stop) with ⟨result, rest⟩
  rw [ReadM.value, ran] at read
  cases read
  rw [read_cie_prelude] at ran
  obtain ⟨before, _, first, ran⟩ := ReadM.run_bind_ok ran
  have advances : (readPrelude area.kind layout).Advances := parsers_advance.prelude parsers_advance.text _ _
  obtain ⟨middle, forward, short, rfl⟩ := read_in_window ordered inside advances first
  obtain ⟨augmentation, _, part, ran⟩ := ReadM.run_bind_ok ran
  obtain ⟨behind, forward', short', rfl, holds⟩ := augmentation_part_in_window short inside rfl part
  cases ran
  exact ⟨Nat.le_trans forward forward', short', rfl, before, middle, first, holds⟩

theorem read_fde_in_window {offset : Nat} {layout : Layout} {cie : Cie} {fde : Fde}
    (read : (readFde offset cie (area.bases layout)).value (area.window endian here stop) = .ok fde) :
    area.HoldsFde endian layout cie here stop fde := by
  rcases ran : (readFde offset cie (area.bases layout)).run (area.window endian here stop) with ⟨result, rest⟩
  rw [ReadM.value, ran] at read
  cases read
  obtain ⟨start, _, first, ran⟩ := ReadM.run_bind_ok ran
  obtain ⟨second, forward, short, rfl, starts⟩ := required_in_window ordered inside rfl first
  obtain ⟨length, _, next, ran⟩ := ReadM.run_bind_ok ran
  obtain ⟨third, forward', short', rfl, reaches⟩ := required_in_window short inside rfl next
  obtain ⟨lsda, _, last, ran⟩ := ReadM.run_bind_ok ran
  obtain ⟨behind, forward'', short'', rfl, holds⟩ := lsda_in_window short' inside rfl last
  cases ran
  exact ⟨Nat.le_trans forward (Nat.le_trans forward' forward''), short'', rfl, second, third, starts, reaches, holds⟩

end Entries

/-! Programs where they stand. -/
section Programs

variable {format : OperandFormat}

theorem jump_read {cursor rest : Cursor} {address : UInt64}
    (read : (readInstruction format).run cursor = (.ok (.setLoc address), rest)) :
    ∃ bytes, cursor.data = 0x01 :: bytes ∧
      (readRequired .omittedTarget format.encoding format.addressSize format.bases).run (cursor.advance 1) =
        (.ok address, rest) := by
  obtain ⟨_, _, looked, read⟩ := ReadM.run_bind_ok read
  cases looked
  obtain ⟨opcode, _, first, read⟩ := ReadM.run_bind_ok read
  rw [read_byte_run] at first
  split at first
  · cases first
  next bytes known =>
    cases first
    dsimp only at read
    split at read
    · cases read
    · obtain ⟨units, _, -, read⟩ := ReadM.run_bind_ok read
      cases read
    · cases read
    · by_cases jumps : opcode = 0x01
      · subst jumps
        rw [readExtended, map_eq_pure_bind] at read
        obtain ⟨address', _, required, read⟩ := ReadM.run_bind_ok read
        cases read
        exact ⟨bytes, known, required⟩
      · exact absurd rfl (extended_no_jump format _ opcode jumps _ _ (congrArg Prod.fst read) address)

variable {area : Section} {endian : Endian} {here stop : Nat}

theorem decode_empty (nothing : stop ≤ here) : decodeProgram format (area.window endian here stop) = [] := by
  have empty : area.between here stop = [] := by
    rw [Section.between, List.drop_eq_nil_iff, List.length_take]
    omega
  rw [Section.window, empty]
  rfl

/-- A program begins with its first instruction and goes on behind that, wherever it ends. -/
theorem decode_first_window (inside : stop ≤ area.data.length) {behind : List (Except Fault Instruction)}
    {instruction : Instruction}
    (decodes : decodeProgram format (area.window endian here stop) = .ok instruction :: behind) :
    ∃ next, here < next ∧ next ≤ stop ∧
      (readInstruction format).run (area.window endian here stop) = (.ok instruction, area.window endian next stop) ∧
      ∀ last, next ≤ last → last ≤ stop → decodeProgram format (area.window endian here last) =
        .ok instruction :: decodeProgram format (area.window endian next last) := by
  have ordered : here < stop := by
    by_contra past
    rw [decode_empty (Nat.le_of_not_lt past)] at decodes
    cases decodes
  have some : (area.window endian here stop).data ≠ [] := by
    rw [← List.length_pos_iff, Section.window, between_length inside]
    omega
  have first := decode_run format (area.window endian here stop) some
  rcases ran : (readInstruction format).run (area.window endian here stop) with ⟨fault | read, rest⟩ <;>
    rw [ran, decodes] at first <;> cases first
  obtain ⟨taken, left, something, split, moved, again⟩ := decode_taken format some (congrArg Prod.fst ran)
  obtain ⟨next, forward, short, window⟩ :=
    read_in_window (Nat.le_of_lt ordered) inside (parsers_advance.instruction format) ran
  rw [ran, window] at moved
  -- the bytes taken are those up to the next instruction
  have place : next = here + taken.length := congrArg Cursor.offset moved
  have bytes : taken = area.between here next := by
    have remaining : area.between next stop = left := congrArg Cursor.data moved
    have whole : area.between here stop = taken ++ left := split
    rw [between_append forward short, remaining] at whole
    exact (List.append_cancel_right whole).symm
  have positive : 0 < taken.length := List.length_pos_iff.mpr something
  refine ⟨next, by omega, short, by rw [window], fun last begun ends => ?_⟩
  have joined := again (area.between next last)
  rw [bytes, ← between_append forward begun, ← bytes, Section.window] at joined
  rw [Section.window, joined, place]
  rfl

/-- Where a program from `start` to `stop` jumps to an address, that is the pointer behind the opcode. The
instructions before it are those of the bytes before it. -/
def Section.ResolvesJumps (area : Section) (endian : Endian) (start stop : Nat) : Prop :=
  ∀ (format : OperandFormat) (before behind : List (Except Fault Instruction)) (address : UInt64),
    format.bases.sectionAddress = area.address →
      decodeProgram format (area.window endian start stop) = before ++ .ok (.setLoc address) :: behind →
        ∃ place last, start ≤ place ∧ place < stop ∧
          decodeProgram format (area.window endian start place) = before ∧ area.data[place]? = some 0x01 ∧
          area.Pointer endian format.addressSize format.bases format.encoding (place + 1) stop last (some address)

theorem jumps_resolved (inside : stop ≤ area.data.length) : area.ResolvesJumps endian here stop := by
  intro format before behind address same decodes
  induction before generalizing here with
  | nil =>
      obtain ⟨next, forward, short, read, -⟩ := decode_first_window inside decodes
      obtain ⟨bytes, opcode, operand⟩ := jump_read read
      obtain ⟨stored, below⟩ := between_head opcode
      rw [window_advance] at operand
      obtain ⟨last, -, -, -, points⟩ := required_in_window below inside same operand
      exact ⟨here, last, Nat.le_refl _, below, decode_empty (Nat.le_refl _), stored, points⟩
  | cons item before ih =>
      cases item with
      | error fault =>
          -- a fault would be the last item
          have whole := decode_decoded format (area.window endian here stop)
          rw [decodes] at whole
          have alone := decoded_fault_last whole (List.getElem?_cons_zero ..)
          simp at alone
      | ok instruction =>
          obtain ⟨next, forward, short, read, again⟩ := decode_first_window inside decodes
          have tail := again stop short (Nat.le_refl _)
          rw [decodes] at tail
          obtain ⟨place, last, begun, below, earlier, stored, points⟩ := ih (List.cons.inj tail).2.symm
          refine ⟨place, last, by omega, below, ?_, stored, points⟩
          rw [again place begun (Nat.le_of_lt below), earlier]

end Programs

/-! Headers where they stand, side by side. -/
section Headers

variable {area : Section} {endian : Endian}

structure EntryHeader.StandsIn (area : Section) (endian : Endian) (offset : Nat) (header : EntryHeader) : Prop where
  offset : header.offset = offset
  -- the length field comes first, then the id, then the body
  length : header.offset + 4 ≤ header.idOffset
  id : header.idOffset < header.body.offset
  ordered : header.body.offset ≤ header.next
  inside : header.next ≤ area.data.length
  body : header.body = area.window endian header.body.offset header.next

theorem header_stands {offset : Nat} {header : EntryHeader}
    (found : area.header endian offset = .ok (some header)) : header.StandsIn area endian offset := by
  obtain ⟨wide, length, -, -, inside, fits, rfl⟩ := header_some area endian offset header found
  have length_width : 4 ≤ lengthWidth wide := by cases wide <;> decide
  have id_width : 0 < idWidth area.kind wide := by unfold idWidth; split <;> decide
  refine ⟨rfl, ?_, ?_, ?_, inside, ?_⟩
  · exact Nat.add_le_add_left length_width offset
  · exact Nat.lt_add_of_pos_right id_width
  · exact Nat.add_le_add_left fits _
  · simp only [Section.headerAt, Section.window, Section.between, List.take_drop, List.drop_drop]

variable {start : Nat} {walk : Walk}

/-- The headers that a walk visits lie side by side: each begins where the one before it ends, the first where
the walk begins, and the last ends where the walk does. -/
theorem walked_contiguous (walked : area.Walked endian start walk) :
    start :: walk.headers.map (·.next) = walk.headers.map (·.offset) ++ [walk.finish start] := by
  induction walked with
  | stopped | ended => rfl
  | @entered offset header rest found tail ih =>
      have same := (header_stands found).offset
      have last : Walk.finish { rest with headers := header :: rest.headers } offset = rest.finish header.next := rfl
      rw [last]
      simp only [List.map_cons, List.cons_append, same, ih]

theorem walked_apart (walked : area.Walked endian start walk) :
    walk.headers.Pairwise fun one other => one.offset < other.offset ∧ one.next ≤ other.offset := by
  induction walked with
  | stopped | ended => exact .nil
  | @entered offset header rest found tail ih =>
      have stands := header_stands found
      refine .cons (fun other later => ?_) ih
      have behind := (walked_forward tail).1 other later
      have forward : header.offset < header.next :=
        Nat.lt_of_lt_of_le (stands.id.trans' (by have := stands.length; omega)) stands.ordered
      exact ⟨Nat.lt_of_lt_of_le forward behind, behind⟩

theorem walked_ends (walked : area.Walked endian start walk) (header : EntryHeader) :
    area.header endian (walk.finish start) ≠ .ok (some header) := by
  rcases walked_finish walked with ⟨nothing, -⟩ | ⟨fault, broken, -⟩
  · simp [nothing]
  · simp [broken]

end Headers

/-! Everything that is read behind a header. -/
section Truth

variable {area : Section} {endian : Endian} {offset : Nat} {header : EntryHeader}
  (found : area.header endian offset = .ok (some header))

include found

theorem cie_held {layout : Layout} {cie : Cie} (read : header.cie area layout = .ok cie) :
    area.HoldsCie endian layout header.body.offset header.next cie := by
  have stands := header_stands found
  unfold EntryHeader.cie at read
  split at read
  · rw [stands.body] at read
    exact read_cie_in_window stands.ordered stands.inside read
  · cases read

theorem fde_held {layout : Layout} {cie : Cie} {fde : Fde} (read : header.fde cie area layout = .ok fde) :
    area.HoldsFde endian layout cie header.body.offset header.next fde := by
  have stands := header_stands found
  rw [EntryHeader.fde, stands.body] at read
  exact read_fde_in_window stands.ordered stands.inside read

omit found in
/-- The entry of an indexed function and its common entry stand where they say, in one section of the module. -/
theorem function_stands {module : LoadedModule} {f : CfiEntry} (member : f ∈ module.functions) :
    ∃ area ∈ module.sections, f.operandFormat.bases.sectionAddress = area.address ∧
      (∃ common, area.header f.endian f.cie.offset = .ok (some common) ∧
        area.HoldsCie f.endian module.layout common.body.offset common.next f.cie) ∧
      ∃ header, area.header f.endian f.fde.offset = .ok (some header) ∧
        area.HoldsFde f.endian module.layout f.cie header.body.offset header.next f.fde := by
  obtain ⟨area, home, header, walked, found⟩ := function_read member
  obtain ⟨cie, fde, described, -, rfl⟩ := function_at_some found
  obtain ⟨offset, -, rest⟩ := bind_ok described
  obtain ⟨common, read, rest⟩ := bind_ok rest
  obtain ⟨function, own, rest⟩ := bind_ok rest
  cases rest
  have here := walked_found (walk_walked area module.layout.endian) header walked
  have placed : fde.offset = header.offset := read_fde_offset header.offset cie _ header.body fde own
  have shared : cie.offset = offset := section_cie_offset area module.layout offset cie read
  obtain ⟨next, there, read⟩ := bind_ok read
  cases next with
  | none => cases read
  | some first =>
      rw [← placed] at here
      rw [← shared] at there
      exact ⟨area, home, rfl, ⟨first, there, cie_held there read⟩, header, here, fde_held here own⟩

omit found in
/-- The programs of an indexed function stand in its section, and are decoded with the address of the section. -/
theorem programs_stand {module : LoadedModule} {f : CfiEntry} (member : f ∈ module.functions) :
    ∃ area ∈ module.sections, f.operandFormat.bases.sectionAddress = area.address ∧
      ∃ shared own, f.cie.programOffset ≤ shared ∧ shared ≤ area.data.length ∧
        f.fde.programOffset ≤ own ∧ own ≤ area.data.length ∧
        ⟨f.cie.program, f.cie.programOffset, f.endian⟩ = area.window f.endian f.cie.programOffset shared ∧
        ⟨f.fde.program, f.fde.programOffset, f.endian⟩ = area.window f.endian f.fde.programOffset own := by
  obtain ⟨area, home, same, ⟨common, there, shared⟩, header, here, own⟩ := function_stands member
  exact ⟨area, home, same, common.next, header.next, shared.inside, (header_stands there).inside,
    own.inside, (header_stands here).inside, congrArg (Cursor.mk · _ _) shared.program,
    congrArg (Cursor.mk · _ _) own.program⟩

end Truth

/-- What a header, and the entry behind it, say of their places in the section is so: the parts of an entry are
the bytes at their offsets, one behind the other, and a pointer in them is read at its offset and is relative to
the address that the section has there. A walk visits entries that lie side by side without a gap, each
further on, to an offset where there is no entry. What is interpreted of an indexed function are the programs
that stand in its section. -/
theorem offsets_tell_the_truth (area : Section) (endian : Endian) :
    (∀ offset header, area.header endian offset = .ok (some header) →
      header.StandsIn area endian offset ∧
      (∀ layout cie, header.cie area layout = .ok cie →
        area.HoldsCie endian layout header.body.offset header.next cie ∧
          area.ResolvesJumps endian cie.programOffset header.next) ∧
      ∀ layout cie fde, header.fde cie area layout = .ok fde →
        area.HoldsFde endian layout cie header.body.offset header.next fde ∧
          area.ResolvesJumps endian fde.programOffset header.next) ∧
    (area.walk endian).headers.Pairwise (fun one other => one.offset < other.offset ∧ one.next ≤ other.offset) ∧
    0 :: (area.walk endian).headers.map (·.next) =
      (area.walk endian).headers.map (·.offset) ++ [area.finish endian] ∧
    (∀ header ∈ (area.walk endian).headers, area.header endian header.offset = .ok (some header)) ∧
    (∀ header, area.header endian (area.finish endian) ≠ .ok (some header)) ∧
    ∀ (module : LoadedModule), ∀ f ∈ module.functions, ∃ home ∈ module.sections,
      f.operandFormat.bases.sectionAddress = home.address ∧
      ∃ shared own, f.cie.programOffset ≤ shared ∧ shared ≤ home.data.length ∧
        f.fde.programOffset ≤ own ∧ own ≤ home.data.length ∧
        f.initialProgram = decodeProgram f.operandFormat (home.window f.endian f.cie.programOffset shared) ∧
        f.program = decodeProgram f.operandFormat (home.window f.endian f.fde.programOffset own) := by
  have walked := walk_walked area endian
  refine ⟨fun offset header found => ?_, walked_apart walked, walked_contiguous walked, walked_found walked,
    walked_ends walked, fun module f member => ?_⟩
  · have stands := header_stands found
    exact ⟨stands, fun layout cie read => ⟨cie_held found read, jumps_resolved stands.inside⟩,
      fun layout cie fde read => ⟨fde_held found read, jumps_resolved stands.inside⟩⟩
  · obtain ⟨home, loaded, same, shared, own, begun, inside, begun', inside', common, function⟩ := programs_stand member
    exact ⟨home, loaded, same, shared, own, begun, inside, begun', inside',
      congrArg (decodeProgram f.operandFormat) common, congrArg (decodeProgram f.operandFormat) function⟩

def jumpingSection : Section where
  kind := .ehFrame
  address := 0x1000
  data := [
    0x16, 0, 0, 0, 0, 0, 0, 0, 1, 0x7a, 0x50, 0x52, 0, 1, 0x78, 0x10,
    6, 0x1b, 0x10, 0, 0, 0, 0x1b, 0x0c, 7, 8,
    0x14, 0, 0, 0, 0x1e, 0, 0, 0, 0xde, 0x0f, 0, 0, 0, 1, 0, 0, 0,
    1, 0xe4, 0x0f, 0, 0, 0x0e, 0x10]

def jumpingCie : Cie where
  offset := 0
  version := 1
  augmentationText := "zPR"
  augmentation := some { fdeEncoding := some ⟨0x1b⟩, personality := some 0x1022 }
  addressSize := 8
  codeAlignment := 1
  dataAlignment := -8
  returnColumn := 16
  program := [0x0c, 7, 8]
  programOffset := 23

def jumpingFde : Fde where
  offset := 26
  cieOffset := 0
  start := 0x2000
  length := 0x100
  lsda := none
  program := [1, 0xe4, 0x0f, 0, 0, 0x0e, 0x10]
  programOffset := 43

/-- The common entry stands at offset 0 and the function's at 26. The program of the latter jumps first, to an
address that is stored at offset 44. -/
theorem offsets_tell_the_truth_jump :
    let common := jumpingSection.headerAt .little 0 false 22
    let header := jumpingSection.headerAt .little 26 false 20
    let format : OperandFormat := ⟨8, ⟨0x1b⟩, jumpingSection.bases {}⟩
    (∃ cie, common.cie jumpingSection {} = .ok cie ∧ jumpingSection.HoldsCie .little {} 8 26 cie ∧
      cie.augmentation.bind (·.personality) = some 0x1022) ∧
      header.fde jumpingCie jumpingSection {} = .ok jumpingFde ∧
      jumpingSection.HoldsFde .little {} jumpingCie 34 50 jumpingFde ∧
      ∃ place last, 43 ≤ place ∧ decodeProgram format (jumpingSection.window .little 43 place) = [] ∧
        jumpingSection.Pointer .little 8 (jumpingSection.bases {}) ⟨0x1b⟩ (place + 1) 50 last (some 0x2010) := by
  intro common header format
  have first_found : jumpingSection.header .little 0 = .ok (some common) := rfl
  have personal : (common.cie jumpingSection {}).toOption.bind (·.augmentation.bind (·.personality)) =
      some 0x1022 := by decide +kernel
  have found : jumpingSection.header .little 26 = .ok (some header) := rfl
  have read : header.fde jumpingCie jumpingSection {} = .ok jumpingFde := rfl
  have jumps : decodeProgram format (jumpingSection.window .little 43 50) =
      [] ++ .ok (.setLoc 0x2010) :: [.ok (.defCfaOffset 16)] := by decide +kernel
  obtain ⟨-, commons, -⟩ := (offsets_tell_the_truth jumpingSection .little).1 0 common first_found
  obtain ⟨-, -, functions⟩ := (offsets_tell_the_truth jumpingSection .little).1 26 header found
  obtain ⟨holds, resolves⟩ := functions {} jumpingCie jumpingFde read
  obtain ⟨place, last, begun, -, first, -, points⟩ := resolves format [] _ 0x2010 rfl jumps
  refine ⟨?_, read, holds, place, last, begun, first, points⟩
  cases common_read : common.cie jumpingSection {} with
  | error fault =>
      rw [common_read] at personal
      cases personal
  | ok cie =>
      rw [common_read] at personal
      exact ⟨cie, rfl, (commons {} cie common_read).1, personal⟩

end CallFrame
