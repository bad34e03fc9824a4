import CallFrame.Proofs.Locality
import CallFrame.Proofs.ReadingInBounds

/-!
Programs one behind the other. Decoding goes forward, and what it yields of a program has nothing to do with
what follows. So a program that is decoded without a fault is decoded alike in front of any other, and the
other one as it would be alone at the offset that it has there. Every item takes bytes of its own, and a
fault is the last one.
-/

namespace CallFrame

variable {format : OperandFormat}

/-! Decoding without the bound that makes it a recursion. -/
section Decoded

/-- The items that are decoded from a cursor: instructions, each read where the one before it ends, until
there are no bytes left or an instruction cannot be read. -/
inductive Decoded (format : OperandFormat) : Cursor → List (Except Fault Instruction) → Prop
  | ended {cursor : Cursor} (nothing : cursor.data = []) : Decoded format cursor []
  | refused {cursor rest : Cursor} {fault : Fault} (some : cursor.data ≠ [])
      (failed : (readInstruction format).run cursor = (.error fault, rest)) :
      Decoded format cursor [.error fault]
  | read {cursor rest : Cursor} {instruction : Instruction} {items : List (Except Fault Instruction)}
      (some : cursor.data ≠ []) (first : (readInstruction format).run cursor = (.ok instruction, rest))
      (tail : Decoded format rest items) : Decoded format cursor (.ok instruction :: items)

theorem decode_decoded (format : OperandFormat) (cursor : Cursor) :
    Decoded format cursor (decodeProgram format cursor) := by
  induction length : cursor.data.length using Nat.strong_induction_on generalizing cursor with
  | _ size ih =>
  by_cases nothing : cursor.data = []
  · have empty : decodeProgram format cursor = [] := by
      rw [decodeProgram, nothing]
      rfl
    rw [empty]
    exact .ended nothing
  rw [decode_run format cursor nothing]
  rcases ran : (readInstruction format).run cursor with ⟨fault | instruction, rest⟩
  · exact .refused nothing ran
  · have shorter := instruction_shorter format ran
    exact .read nothing ran (ih _ (by omega) rest rfl)

variable {cursor : Cursor} {items : List (Except Fault Instruction)}

theorem decoded_length (decoded : Decoded format cursor items) : items.length ≤ cursor.data.length := by
  induction decoded with
  | ended nothing => exact Nat.zero_le _
  | refused some failed => exact List.length_pos_iff.mpr some
  | read some first tail ih =>
      have shorter := instruction_shorter format first
      rw [List.length_cons]
      omega

theorem decoded_faults (decoded : Decoded format cursor items) : items.countP (!·.isOk) ≤ 1 := by
  induction decoded with
  | ended nothing => exact Nat.zero_le 1
  | refused some failed => exact Nat.le_refl 1
  | read some first tail ih => simpa [Except.isOk, Except.toBool] using ih

/-- Behind a program that is decoded without a fault, another one is decoded as it would be alone. -/
theorem decoded_append {instructions : List Instruction}
    (decoded : Decoded format cursor (instructions.map .ok)) (other : List UInt8) :
    decodeProgram format { cursor with data := cursor.data ++ other } =
      instructions.map .ok ++ decodeProgram format
        { cursor with data := other, offset := cursor.offset + cursor.data.length } := by
  generalize whole : instructions.map Except.ok = items at decoded
  induction decoded generalizing instructions with
  | ended nothing =>
      rw [nothing]
      rfl
  | refused some failed =>
      -- no instruction is a fault
      obtain ⟨instruction, -, refusal⟩ := List.mem_map.mp (whole ▸ List.mem_singleton_self _)
      cases refusal
  | @read cursor rest instruction items some first tail ih =>
      obtain ⟨_, behind, rfl, read, tailed⟩ := List.map_eq_cons_iff.mp whole
      cases read
      have answered : (readInstruction format).value cursor = .ok instruction := congrArg Prod.fst first
      obtain ⟨taken, left, -, split, moved, again⟩ := decode_taken format some answered
      rw [first] at moved
      cases moved
      have place : cursor.offset + cursor.data.length = cursor.offset + taken.length + left.length := by
        rw [split, List.length_append, Nat.add_assoc]
      rw [split, List.append_assoc, again, ih tailed, ← split, place]
      rfl

/-- A fault is the last item. -/
theorem decoded_fault_last (decoded : Decoded format cursor items) {count : Nat} {fault : Fault}
    (found : items[count]? = some (.error fault)) : items.length = count + 1 := by
  induction decoded generalizing count with
  | ended nothing => cases found
  | refused some failed =>
      cases count with
      | zero => rfl
      | succ count => cases found
  | read some first tail ih =>
      cases count with
      | zero => cases found
      | succ count => exact congrArg Nat.succ (ih found)

end Decoded

/-! Decoding item by item. -/
section Items

/-- What is yielded by a decoder that is asked for the next item, and the cursor that it goes on from.
Behind a fault there are no bytes left to go on with. -/
def nextItem (format : OperandFormat) (cursor : Cursor) : Option (Except Fault Instruction) × Cursor :=
  if cursor.data.isEmpty then (none, cursor)
  else match (readInstruction format).run cursor with
    | (.ok instruction, rest) => (some (.ok instruction), rest)
    | (.error fault, rest) => (some (.error fault), { rest with data := [] })

def itemAfter (format : OperandFormat) : (count : Nat) → Cursor → Option (Except Fault Instruction)
  | 0, cursor => (nextItem format cursor).1
  | count + 1, cursor => itemAfter format count (nextItem format cursor).2

theorem item_after_nothing (count : Nat) (cursor : Cursor) (nothing : cursor.data = []) :
    itemAfter format count cursor = none := by
  have next : nextItem format cursor = (none, cursor) := by
    rw [nextItem, nothing]
    rfl
  induction count with
  | zero => exact congrArg Prod.fst next
  | succ count ih => rw [itemAfter, next, ih]

/-- Asking for one item after the other yields the items of the program, and then nothing. -/
theorem item_after_decoded (count : Nat) {cursor : Cursor} {items : List (Except Fault Instruction)}
    (decoded : Decoded format cursor items) : itemAfter format count cursor = items[count]? := by
  induction decoded generalizing count with
  | ended nothing => exact item_after_nothing count _ nothing
  | @refused cursor rest fault some failed =>
      have next : nextItem format cursor = (Option.some (.error fault), { rest with data := [] }) := by
        rw [nextItem, List.isEmpty_eq_false_iff.mpr some, failed]
        rfl
      cases count with
      | zero => exact congrArg Prod.fst next
      | succ count =>
          rw [itemAfter, next]
          exact item_after_nothing count _ rfl
  | @read cursor rest instruction items some first tail ih =>
      have next : nextItem format cursor = (Option.some (.ok instruction), rest) := by
        rw [nextItem, List.isEmpty_eq_false_iff.mpr some, first]
        rfl
      cases count with
      | zero => exact congrArg Prod.fst next
      | succ count =>
          rw [itemAfter, next]
          exact ih count

theorem next_item_addressable {cursor : Cursor} (addressable : cursor.Addressable) :
    (nextItem format cursor).2.Addressable := by
  have moved := advances_addressable (parsers_advance.instruction format) addressable
  unfold nextItem
  split
  · exact addressable
  rcases ran : (readInstruction format).run cursor with ⟨fault | instruction, rest⟩ <;> rw [ran] at moved
  · exact Nat.lt_of_le_of_lt (Nat.le_add_right _ _) moved
  · exact moved

/-- The decoder goes from item to item, and in a section the offset of none of them is too large for a word. -/
theorem item_after_addressable (count : Nat) {cursor : Cursor} (addressable : cursor.Addressable) :
    ∃ place : Cursor, place.Addressable ∧ itemAfter format count cursor = (nextItem format place).1 := by
  induction count generalizing cursor with
  | zero => exact ⟨cursor, addressable, rfl⟩
  | succ count ih => exact ih (next_item_addressable addressable)

end Items

/-- Let a program be decoded without a fault. Then in front of any other program it is decoded alike, and
the other is decoded as it would be alone at its offset in the whole. Of any program there are no more items
than bytes, at most one item is a fault, and a decoder that has yielded one yields nothing more. Offsets have
no bound here; of a program in a section they are words (`item_after_addressable`). -/
theorem decoding_composes (format : OperandFormat) (endian : Endian) (offset : Nat)
    (program other : List UInt8) :
    (∀ instructions : List Instruction,
      decodeProgram format ⟨program, offset, endian⟩ = instructions.map .ok →
        decodeProgram format ⟨program ++ other, offset, endian⟩ =
          instructions.map .ok ++ decodeProgram format ⟨other, offset + program.length, endian⟩) ∧
    (decodeProgram format ⟨program, offset, endian⟩).length ≤ program.length ∧
    (decodeProgram format ⟨program, offset, endian⟩).countP (!·.isOk) ≤ 1 ∧
    ∀ count, itemAfter format count ⟨program, offset, endian⟩ =
        (decodeProgram format ⟨program, offset, endian⟩)[count]? ∧
      ∀ fault, itemAfter format count ⟨program, offset, endian⟩ = some (.error fault) →
        ∀ later, count < later → itemAfter format later ⟨program, offset, endian⟩ = none := by
  have decoded := decode_decoded format ⟨program, offset, endian⟩
  refine ⟨fun instructions clean => ?_, decoded_length decoded, decoded_faults decoded, fun count => ?_⟩
  · rw [clean] at decoded
    exact decoded_append decoded other
  refine ⟨item_after_decoded count decoded, fun fault found later behind => ?_⟩
  rw [item_after_decoded count decoded] at found
  have length := decoded_fault_last decoded found
  rw [item_after_decoded later decoded, List.getElem?_eq_none_iff]
  omega

/-- A jump whose target is relative to its own place, and an unknown opcode, behind two instructions. -/
theorem decoding_composes_jump :
    let format : OperandFormat := ⟨8, ⟨0x1b⟩, { sectionAddress := 0x1000 }⟩
    let instructions : List Instruction := [.advanceLoc 1, .offset 3 2]
    decodeProgram format ⟨[0x41, 0x83, 2], 0x20, .little⟩ = instructions.map .ok ∧
      decodeProgram format ⟨[0x41, 0x83, 2] ++ [0x01, 0x10, 0, 0, 0, 0x3f], 0x20, .little⟩ =
        [.ok (.advanceLoc 1), .ok (.offset 3 2), .ok (.setLoc 0x1034), .error (.unknownOpcode 0x3f 0x28)] ∧
      itemAfter format 4 ⟨[0x41, 0x83, 2] ++ [0x01, 0x10, 0, 0, 0, 0x3f], 0x20, .little⟩ = none := by
  intro format instructions
  have clean : decodeProgram format ⟨[0x41, 0x83, 2], 0x20, .little⟩ = instructions.map .ok := by
    decide +kernel
  have joined := (decoding_composes format .little 0x20 [0x41, 0x83, 2] [0x01, 0x10, 0, 0, 0, 0x3f]).1
    instructions clean
  have alone : decodeProgram format ⟨[0x01, 0x10, 0, 0, 0, 0x3f], 0x23, .little⟩ =
      [.ok (.setLoc 0x1034), .error (.unknownOpcode 0x3f 0x28)] := by decide +kernel
  have whole : decodeProgram format ⟨[0x41, 0x83, 2] ++ [0x01, 0x10, 0, 0, 0, 0x3f], 0x20, .little⟩ =
      [.ok (.advanceLoc 1), .ok (.offset 3 2), .ok (.setLoc 0x1034), .error (.unknownOpcode 0x3f 0x28)] := by
    rw [joined]
    exact congrArg (instructions.map .ok ++ ·) alone
  refine ⟨clean, whole, ?_⟩
  have ends := (decoding_composes format .little 0x20
    ([0x41, 0x83, 2] ++ [0x01, 0x10, 0, 0, 0, 0x3f]) []).2.2.2 3
  refine ends.2 (.unknownOpcode 0x3f 0x28) ?_ 4 (by decide)
  rw [ends.1, whole]
  rfl

end CallFrame
