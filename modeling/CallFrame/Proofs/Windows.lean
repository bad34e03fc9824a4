import CallFrame.Proofs.Parsing

/-!
Windows on a section. Whatever is read of an entry is read from a cursor that was made for a part of it, and
stands on the bytes of the section that its offset says. Reading keeps that so: the bytes, a block and a
pointer that are read are those at their offsets.
-/

namespace CallFrame

/-! Cursors on the bytes of a section. -/
section Windows

def Section.between (area : Section) (start stop : Nat) : List UInt8 := (area.data.take stop).drop start

def Section.window (area : Section) (endian : Endian) (start stop : Nat) : Cursor :=
  ⟨area.between start stop, start, endian⟩

/-- Behind its length at `here` a block stands, up to `behind`, before `stop`. -/
structure Section.Block (area : Section) (endian : Endian) (here stop block behind : Nat) : Prop where
  forward : here ≤ block
  ordered : block ≤ behind
  inside : behind ≤ stop
  counted : ∃ length, readUnsigned.run (area.window endian here stop) = (.ok length, area.window endian block stop) ∧
    behind = block + length.toNat

variable {area : Section} {endian : Endian} {here stop : Nat}

theorem between_length (inside : stop ≤ area.data.length) : (area.between here stop).length = stop - here := by
  rw [Section.between, List.length_drop, List.length_take, Nat.min_eq_left inside]

theorem window_advance (count : Nat) :
    (area.window endian here stop).advance count = area.window endian (here + count) stop := by
  rw [Cursor.advance, Section.window, Section.window, Section.between, List.drop_drop]
  rfl

theorem between_take {count : Nat} (inside : here + count ≤ stop) :
    (area.between here stop).take count = area.between here (here + count) := by
  rw [Section.between, Section.between, List.take_drop, List.take_take, Nat.min_eq_left inside]

theorem between_append {middle : Nat} (ordered : here ≤ middle) (inside : middle ≤ stop) :
    area.between here stop = area.between here middle ++ area.between middle stop := by
  obtain ⟨count, rfl⟩ := Nat.exists_eq_add_of_le ordered
  rw [← between_take inside, Section.between, Section.between, ← List.drop_drop, List.take_append_drop]

theorem between_head {byte : UInt8} {rest : List UInt8} (first : area.between here stop = byte :: rest) :
    area.data[here]? = some byte ∧ here < stop := by
  have head : (area.between here stop)[0]? = some byte := by rw [first, List.getElem?_cons_zero]
  rw [Section.between, List.getElem?_drop, Nat.add_zero] at head
  rw [List.getElem?_take] at head
  split at head
  next below => exact ⟨head, below⟩
  next => cases head

theorem byte_in_window {byte : UInt8} {rest : Cursor}
    (ran : readByte.run (area.window endian here stop) = (.ok byte, rest)) :
    area.data[here]? = some byte ∧ here + 1 ≤ stop ∧ rest = area.window endian (here + 1) stop := by
  rw [read_byte_run] at ran
  split at ran
  · cases ran
  next first =>
    obtain ⟨stored, below⟩ := between_head first
    cases ran
    exact ⟨stored, below, window_advance 1⟩

section Reads

variable (ordered : here ≤ stop) (inside : stop ≤ area.data.length)

include ordered inside

/-- What is read from a window leaves one that ends where it did. -/
theorem read_in_window {read : ReadM α} (advances : read.Advances) {result : Except Fault α} {rest : Cursor}
    (ran : read.run (area.window endian here stop) = (result, rest)) :
    ∃ behind, here ≤ behind ∧ behind ≤ stop ∧ rest = area.window endian behind stop := by
  obtain ⟨count, short, left⟩ := advances (area.window endian here stop)
  rw [ran, window_advance] at left
  have length : (area.window endian here stop).data.length = stop - here := between_length inside
  exact ⟨here + count, Nat.le_add_right _ _, by omega, left⟩

theorem bytes_in_window {count : Nat} {bytes : List UInt8} {rest : Cursor}
    (ran : (readBytes count).run (area.window endian here stop) = (.ok bytes, rest)) :
    here + count ≤ stop ∧ bytes = area.between here (here + count) ∧ rest = area.window endian (here + count) stop := by
  have length : (area.window endian here stop).data.length = stop - here := between_length inside
  rw [read_bytes_run, length] at ran
  split at ran
  · cases ran
  next long =>
    have within : here + count ≤ stop := by omega
    cases ran
    exact ⟨within, between_take within, window_advance count⟩

/-- What is read inside a block is read where the block stands. -/
theorem block_in_window {read : ReadM α} {value : α} {rest : Cursor}
    (ran : (readInBlock read).run (area.window endian here stop) = (.ok value, rest)) :
    ∃ block behind, area.Block endian here stop block behind ∧ rest = area.window endian behind stop ∧
      read.value (area.window endian block behind) = .ok value := by
  obtain ⟨bytes, after, first, ran⟩ := ReadM.run_bind_ok ran
  obtain ⟨length, behind, counted, taken⟩ := ReadM.run_bind_ok first
  obtain ⟨block, forward, short, rfl⟩ := read_in_window ordered inside parsers_advance.unsigned counted
  obtain ⟨within, rfl, rfl⟩ := bytes_in_window short inside taken
  have width : (area.between block (block + length.toNat)).length = length.toNat := by
    rw [between_length (by omega), Nat.add_sub_cancel_left]
  have start : (area.window endian (block + length.toNat) stop).offset -
      (area.between block (block + length.toNat)).length = block := by
    rw [width]
    exact Nat.add_sub_cancel _ _
  obtain ⟨_, _, looked, ran⟩ := ReadM.run_bind_ok ran
  cases looked
  rw [start] at ran
  change (liftM (read.value (area.window endian block (block + length.toNat))) : ReadM α).run _ = _ at ran
  exact ⟨block, _, ⟨forward, Nat.le_add_right _ _, within, length, counted, rfl⟩, ReadM.lift_run_ok ran⟩

end Reads

end Windows

/-! Pointers where they stand. -/
section Pointers

/-- Where a value of this application is stored that is looked for at `here`: there, unless it is aligned. -/
def PointerApplication.Field (application : PointerApplication) (size : UInt8) (here field : Nat) : Prop :=
  if application = .aligned then size.toNat ∣ field ∧ here ≤ field ∧ field < here + size.toNat
  else field = here

/-- At an offset of the section, before `stop`, a pointer of this encoding is stored. It ends at `behind`. What
it is relative to, if that is itself, is the address of its field: that of the section and the offset. -/
inductive Section.Pointer (area : Section) (endian : Endian) (size : UInt8) (bases : PointerBases)
    (encoding : Encoding) (here stop : Nat) : (behind : Nat) → Option UInt64 → Prop
  | omitted (nothing : encoding = .omitted) : area.Pointer endian size bases encoding here stop here none
  | stored {application : PointerApplication} {format : PointerFormat} {field behind : Nat}
      {value base : UInt64} (applied : encoding.application = .ok application)
      (formatted : encoding.format = .ok format) (there : application.Field size here field)
      (read : (readFormat size format).run (area.window endian field stop) =
        (.ok value, area.window endian behind stop))
      (based : bases.base (area.address + field.toUInt64) application = .ok base) :
      area.Pointer endian size bases encoding here stop behind (some (wrapAddress size (base + value)))

variable {area : Section} {endian : Endian} {here stop : Nat} (ordered : here ≤ stop)
  (inside : stop ≤ area.data.length)

include ordered inside

theorem align_in_window {size : UInt8} {rest : Cursor}
    (ran : (alignTo size).run (area.window endian here stop) = (.ok (), rest)) :
    ∃ field ≤ stop, (size.toNat ∣ field ∧ here ≤ field ∧ field < here + size.toNat) ∧
      rest = area.window endian field stop := by
  obtain ⟨_, _, looked, ran⟩ := ReadM.run_bind_ok ran
  cases looked
  split at ran
  · cases ran
  next some =>
    have positive : 0 < size.toNat := Nat.pos_of_ne_zero fun zero => some (UInt8.toNat_inj.mp zero)
    change (if here % size.toNat ≠ 0 then _ else _ : ReadM Unit).run _ = _ at ran
    have below := Nat.mod_lt here positive
    by_cases exact : here % size.toNat = 0
    · rw [if_neg (not_not_intro exact)] at ran
      cases ran
      exact ⟨here, ordered, ⟨Nat.dvd_of_mod_eq_zero exact, Nat.le_refl _, by omega⟩, rfl⟩
    · rw [if_pos exact] at ran
      change ((fun _ => ()) <$> readBytes (size.toNat - here % size.toNat)).run _ = _ at ran
      rw [map_eq_pure_bind] at ran
      obtain ⟨bytes, behind, skipped, ran⟩ := ReadM.run_bind_ok ran
      obtain ⟨within, -, rfl⟩ := bytes_in_window ordered inside skipped
      cases ran
      refine ⟨_, within, ⟨?_, Nat.le_add_right _ _, by omega⟩, rfl⟩
      have split := Nat.div_add_mod here size.toNat
      exact ⟨here / size.toNat + 1, by rw [Nat.mul_add]; omega⟩

/-- A value is read at its field, and applied to the base that the address of the field gives. -/
theorem value_in_window {encoding : Encoding} {application : PointerApplication} {size : UInt8} {bases : PointerBases}
    {pointer : Option UInt64} {rest : Cursor} (same : bases.sectionAddress = area.address)
    (ran : (do
      let cursor ← get
      let value ← readFormat size (← encoding.format)
      let base ← bases.base (bases.sectionAddress + cursor.offset.toUInt64) application
      return some (wrapAddress size (base + value)) : ReadM (Option UInt64)).run (area.window endian here stop) =
        (.ok pointer, rest)) :
    ∃ behind format value base, here ≤ behind ∧ behind ≤ stop ∧ rest = area.window endian behind stop ∧
      encoding.format = .ok format ∧
      (readFormat size format).run (area.window endian here stop) = (.ok value, area.window endian behind stop) ∧
      bases.base (area.address + here.toUInt64) application = .ok base ∧
      pointer = some (wrapAddress size (base + value)) := by
  obtain ⟨_, _, looked, ran⟩ := ReadM.run_bind_ok ran
  cases looked
  obtain ⟨format, _, lifted, ran⟩ := ReadM.run_bind_ok ran
  obtain ⟨rfl, formatted⟩ := ReadM.lift_run_ok lifted
  obtain ⟨value, _, read, ran⟩ := ReadM.run_bind_ok ran
  obtain ⟨behind, forward, short, rfl⟩ := read_in_window ordered inside (parsers_advance.format size format) read
  obtain ⟨base, _, lifted, ran⟩ := ReadM.run_bind_ok ran
  obtain ⟨rfl, based⟩ := ReadM.lift_run_ok lifted
  cases ran
  rw [same] at based
  exact ⟨behind, format, value, base, forward, short, rfl, formatted, read, based, rfl⟩

/-- A pointer that is read from a window is stored there. -/
theorem pointer_in_window {encoding : Encoding} {size : UInt8} {bases : PointerBases} {pointer : Option UInt64}
    {rest : Cursor} (same : bases.sectionAddress = area.address)
    (ran : (readPointer encoding size bases).run (area.window endian here stop) = (.ok pointer, rest)) :
    ∃ behind, here ≤ behind ∧ behind ≤ stop ∧ rest = area.window endian behind stop ∧
      area.Pointer endian size bases encoding here stop behind pointer := by
  unfold readPointer at ran
  split at ran
  next nothing =>
    cases ran
    exact ⟨here, Nat.le_refl _, ordered, rfl, .omitted nothing⟩
  split at ran
  · cases ran
  cases applied : encoding.application with
  | error fault =>
      rw [applied] at ran
      cases ran
  | ok application =>
      rw [applied, ReadM.lift_ok, pure_bind] at ran
      dsimp only at ran
      split at ran
      next aligned =>
        obtain ⟨_, _, padded, ran⟩ := ReadM.run_bind_ok ran
        obtain ⟨field, short, there, rfl⟩ := align_in_window ordered inside padded
        obtain ⟨behind, format, value, base, forward, short, rfl, formatted, read, based, rfl⟩ :=
          value_in_window short inside same ran
        have place : application.Field size here field := by rw [PointerApplication.Field, if_pos aligned]; exact there
        exact ⟨behind, Nat.le_trans there.2.1 forward, short, rfl, .stored applied formatted place read based⟩
      next unaligned =>
        obtain ⟨behind, format, value, base, forward, short, rfl, formatted, read, based, rfl⟩ :=
          value_in_window ordered inside same ran
        have place : application.Field size here here := by rw [PointerApplication.Field, if_neg unaligned]
        exact ⟨behind, forward, short, rfl, .stored applied formatted place read based⟩

theorem required_in_window {absent : Fault} {encoding : Encoding} {size : UInt8} {bases : PointerBases}
    {value : UInt64} {rest : Cursor} (same : bases.sectionAddress = area.address)
    (ran : (readRequired absent encoding size bases).run (area.window endian here stop) = (.ok value, rest)) :
    ∃ behind, here ≤ behind ∧ behind ≤ stop ∧ rest = area.window endian behind stop ∧
      area.Pointer endian size bases encoding here stop behind (some value) := by
  obtain ⟨pointer, _, read, ran⟩ := ReadM.run_bind_ok ran
  obtain ⟨behind, forward, short, rfl, points⟩ := pointer_in_window ordered inside same read
  cases pointer with
  | none => cases ran
  | some value =>
      cases ran
      exact ⟨behind, forward, short, rfl, points⟩

end Pointers

end CallFrame
