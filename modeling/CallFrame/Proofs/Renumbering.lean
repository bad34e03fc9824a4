import CallFrame.Arch
import CallFrame.Proofs.DegradedRows
import Mathlib.Logic.Equiv.Basic

/-!
Renumbering registers. Where an architecture numbers registers in its own way, every number that a program
or a common entry stores is translated, once. So a program has the meaning that it has without any
translation if its numbers are translated in the program.
-/

namespace CallFrame

/-! Entries with decoded programs. -/
section Decoded

def runPrograms (target : Target) (entry : CfiEntry) (pc : UInt64)
    (shared own : List (Except Fault Instruction)) (state : RunState) : RunState × Option Fault :=
  match run target entry pc shared state with
  | (state, some fault) => (state, some fault)
  | (state, none) => run target entry pc own state.handOver

/-- Interprets the entry with these programs in the place of its own. -/
def executePrograms (target : Target) (entry : CfiEntry) (shared own : List (Except Fault Instruction))
    (initReg : Register → RegisterRule) (pc : UInt64) : UnwindRow × List Warning :=
  let seed := entry.seed target initReg
  match entry.returnColumn target with
  | .error fault =>
    ({ row := seed.table.row
       returnColumn := noColumn
       functionStart := entry.start
       signalFrame := entry.cie.isSignalFrame
       degraded := some fault }, [.badReturnColumn fault])
  | .ok column => interpreted entry column (runPrograms target entry pc shared own seed)

theorem execute_programs (target : Target) (entry : CfiEntry) (initReg : Register → RegisterRule)
    (pc : UInt64) :
    execute target entry initReg pc =
      executePrograms target entry entry.initialProgram entry.program initReg pc := by
  unfold executePrograms
  cases column : entry.returnColumn target with
  | error fault =>
      unfold execute
      rw [column]
  | ok column' => exact execute_interpreted column

-- The bytes that an entry has for programs count for nothing then.
theorem execute_programs_replace (target : Target) (entry : CfiEntry) (program behind : List UInt8)
    (shared own : List (Except Fault Instruction)) (initReg : Register → RegisterRule) (pc : UInt64) :
    executePrograms target (entry.replace program behind .shared) shared own initReg pc =
      executePrograms target entry shared own initReg pc := by
  simp only [executePrograms, runPrograms, seed_replace, run_replace]
  rfl

end Decoded

/-! Numbers translated in the program. -/
section Renumber

def Instruction.renumber (number : UInt64 → UInt64) : Instruction → Instruction
  | .defCfa raw units => .defCfa (number raw) units
  | .defCfaSf raw units => .defCfaSf (number raw) units
  | .defCfaRegister raw => .defCfaRegister (number raw)
  | .undefined raw => .undefined (number raw)
  | .sameValue raw => .sameValue (number raw)
  | .offset raw units => .offset (number raw) units
  | .offsetExtendedSf raw units => .offsetExtendedSf (number raw) units
  | .negativeOffsetExtended raw units => .negativeOffsetExtended (number raw) units
  | .valOffset raw units => .valOffset (number raw) units
  | .valOffsetSf raw units => .valOffsetSf (number raw) units
  | .register raw source => .register (number raw) (number source)
  | .expression raw code => .expression (number raw) code
  | .valExpression raw code => .valExpression (number raw) code
  | .restore raw => .restore (number raw)
  -- the others name no register
  | other => other

def renumbered (number : UInt64 → UInt64) (program : List (Except Fault Instruction)) :
    List (Except Fault Instruction) :=
  program.map (·.map (·.renumber number))

/-- The entry in a section of this kind, with its return address column translated. -/
def CfiEntry.renumber (number : UInt64 → UInt64) (kind : SectionKind) (entry : CfiEntry) : CfiEntry :=
  { entry with kind, cie := { entry.cie with returnColumn := number entry.cie.returnColumn } }

def Target.numbered (target : Target) (adjust : Option (UInt64 → SectionKind → UInt64)) : Target :=
  { target with adjust }

variable {target : Target} {entry : CfiEntry} {adjust : Option (UInt64 → SectionKind → UInt64)}
  {kind : SectionKind} {number : UInt64 → UInt64}

-- Where the target finds the column of a number, it finds that of the translated number with the other
-- hook and in the other kind of section.
variable (same : ∀ raw, target.column entry.kind raw = (target.numbered adjust).column kind (number raw))

include same

theorem step_renumbered (instruction : Instruction) (state : RunState) :
    step target entry instruction state =
      step (target.numbered adjust) (entry.renumber number kind) (instruction.renumber number) state := by
  cases instruction with
  | defCfa | defCfaSf | defCfaRegister | undefined | sameValue | offset | offsetExtendedSf
  | negativeOffsetExtended | valOffset | valOffsetSf | register | expression | valExpression | restore =>
      simp only [step, Instruction.renumber, same]
      rfl
  | setLoc | advanceLoc | defCfaOffset | defCfaOffsetSf | defCfaExpression | rememberState | restoreState
  | windowSave | skipped | nop => rfl

theorem run_renumbered (pc : UInt64) (program : List (Except Fault Instruction)) (state : RunState) :
    run target entry pc program state =
      run (target.numbered adjust) (entry.renumber number kind) pc (renumbered number program) state := by
  apply run_alike pc
  rw [renumbered, List.forall₂_map_right_iff, List.forall₂_same]
  rintro (fault | instruction) -
  · exact .error fault
  · exact .ok (step_renumbered same instruction)

theorem seed_renumbered (initReg : Register → RegisterRule) :
    (entry.renumber number kind).seed (target.numbered adjust) initReg = entry.seed target initReg := by
  have column : (entry.renumber number kind).returnColumn (target.numbered adjust) = entry.returnColumn target :=
    (same entry.cie.returnColumn).symm
  simp only [CfiEntry.seed, CfiEntry.seedCount, column]
  rfl

theorem execute_renumbered (initReg : Register → RegisterRule) (pc : UInt64)
    (shared own : List (Except Fault Instruction)) :
    executePrograms target entry shared own initReg pc =
      executePrograms (target.numbered adjust) (entry.renumber number kind) (renumbered number shared)
        (renumbered number own) initReg pc := by
  have column : (entry.renumber number kind).returnColumn (target.numbered adjust) = entry.returnColumn target :=
    (same entry.cie.returnColumn).symm
  simp only [executePrograms, column, seed_renumbered same, runPrograms, ← run_renumbered same]
  rfl

end Renumber

theorem exchange_in_eh_frame (raw : UInt64) :
    I386.exchangeInEhFrame raw .ehFrame = Equiv.swap 4 5 raw := (Equiv.swap_apply_def 4 5 raw).symm

/-- Of a number that is exchanged, the exception handling variant makes what the other one makes of it as it
was. -/
theorem darwin_column (raw : UInt64) :
    I386.darwin.toTarget.column .debugFrame raw =
      I386.darwin.toTarget.column .ehFrame (Equiv.swap 4 5 raw) := by
  have back : I386.darwin.toTarget.adjusted (Equiv.swap 4 5 raw) .ehFrame = raw := by
    change I386.exchangeInEhFrame (Equiv.swap 4 5 raw) .ehFrame = raw
    rw [exchange_in_eh_frame, Equiv.swap_apply_self]
  simp only [Target.column, back]
  rfl

/-- An architecture with a hook that numbers registers reads two programs as it reads them without the hook
once the hook has translated every register number in them and the return address column. With the programs
that an entry has, this is what reading the entry is. So with the numbers 4 and 5 exchanged everywhere, an entry
of the exception handling variant is to i386-darwin what it is with the numbers as they were in the other
variant. -/
theorem renumbering_is_translation (arch : Arch) (hook : UInt64 → SectionKind → UInt64) (entry : CfiEntry)
    (shared own : List (Except Fault Instruction)) (initReg : Register → RegisterRule) (pc : UInt64) :
    (∀ target : Target, execute target entry initReg pc =
      executePrograms target entry entry.initialProgram entry.program initReg pc) ∧
    executePrograms (arch.toTarget.numbered (some hook)) entry shared own initReg pc =
      executePrograms (arch.toTarget.numbered none) (entry.renumber (hook · entry.kind) entry.kind)
        (renumbered (hook · entry.kind) shared) (renumbered (hook · entry.kind) own) initReg pc ∧
    executePrograms I386.darwin.toTarget (entry.renumber (Equiv.swap 4 5) .ehFrame)
        (renumbered (Equiv.swap 4 5) shared) (renumbered (Equiv.swap 4 5) own) initReg pc =
      executePrograms I386.darwin.toTarget { entry with kind := .debugFrame } shared own initReg pc := by
  refine ⟨fun target => execute_programs target entry initReg pc, ?_, ?_⟩
  · have translated (raw : UInt64) : (arch.toTarget.numbered (some hook)).column entry.kind raw =
        ((arch.toTarget.numbered (some hook)).numbered none).column entry.kind (hook raw entry.kind) := rfl
    exact execute_renumbered translated initReg pc shared own
  · exact (@execute_renumbered I386.darwin.toTarget { entry with kind := .debugFrame } I386.darwin.adjust .ehFrame
      (Equiv.swap 4 5) darwin_column initReg pc shared own).symm

/-- A frame of i386 in a section of this kind. Its caller's stack pointer is found by one register at first,
and then by the other one, which is saved. -/
def framePointerFrame (kind : SectionKind) (stack base : UInt8) : CfiEntry where
  cie := {
    offset := 0, version := 1, augmentationText := "", augmentation := none, addressSize := 4
    codeAlignment := 1, dataAlignment := -4, returnColumn := 8
    program := [0x0c, stack, 4, 0x88, 1], programOffset := 0x10 }
  fde := {
    offset := 0x18, cieOffset := 0, start := 0x1000, length := 0x40, lsda := none
    program := [0x41, 0x0e, 8, 0x80 + base, 2, 0x42, 0x0d, base], programOffset := 0x28 }
  kind
  bias := 0
  endian := .little
  bases := { sectionAddress := 0 }

-- The numbers 4 and 5 are exchanged in the program, which is in the exception handling variant. The row is the
-- one of the program as it was, with the frame address found by the base pointer.
theorem renumbering_is_translation_darwin :
    let plain := framePointerFrame .debugFrame 4 5
    let exchanged := framePointerFrame .ehFrame 5 4
    let row (entry : CfiEntry) := (execute I386.darwin.toTarget entry (fun _ => .unspecified) 0x1010).1.row
    exchanged.initialProgram = renumbered (Equiv.swap 4 5) plain.initialProgram ∧
      exchanged.program = renumbered (Equiv.swap 4 5) plain.program ∧
      plain.program = [.ok (.advanceLoc 1), .ok (.defCfaOffset 8), .ok (.offset 5 2), .ok (.advanceLoc 2),
        .ok (.defCfaRegister 5)] ∧
      row exchanged = row plain ∧
      (row exchanged).cfa = some (.registerAndOffset I386.ebp 8) ∧
      (row exchanged).specified = [(I386.ebp, .savedAtOffset (-8)), (I386.eip, .savedAtOffset (-4))] := by
  intro plain exchanged row
  have shared : exchanged.initialProgram = renumbered (Equiv.swap 4 5) plain.initialProgram := by decide +kernel
  have own : exchanged.program = renumbered (Equiv.swap 4 5) plain.program := by decide +kernel
  have stored : exchanged = (plain.renumber (Equiv.swap 4 5) .ehFrame).replace
      exchanged.cie.program exchanged.fde.program .shared := rfl
  obtain ⟨reads, -, same⟩ := renumbering_is_translation I386.darwin I386.exchangeInEhFrame plain
    plain.initialProgram plain.program (fun _ => .unspecified) 0x1010
  have alike : { plain with kind := .debugFrame } = plain := rfl
  have rows : row exchanged = row plain := by
    simp only [row]
    rw [reads, execute_programs, shared, own, stored, execute_programs_replace, same, alike]
  have cfa : (row plain).cfa = some (.registerAndOffset I386.ebp 8) := by decide +kernel
  have rules : (row plain).specified = [(I386.ebp, .savedAtOffset (-8)), (I386.eip, .savedAtOffset (-4))] := by
    decide +kernel
  exact ⟨shared, own, by decide +kernel, rows, rows ▸ cfa, rows ▸ rules⟩

end CallFrame
