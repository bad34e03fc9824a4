import CallFrame.Proofs.EntryRoundTrip
import CallFrame.Proofs.IndexLookup

/-!
Assembling a section call by call, and walking what was assembled. A call only appends, so what an
entry is read as is settled when it is written; the walk then meets the entries in the order of the
calls.
-/

namespace CallFrame

/-! The header of an entry that was sealed. -/
section Sealed

def Assembler.padding (content : List UInt8) : Nat := (8 - (8 + content.length) % 8) % 8

theorem padding_lt (content : List UInt8) : Assembler.padding content < 8 :=
  Nat.mod_lt _ (by decide)

def Assembler.padded (content : List UInt8) : List UInt8 :=
  content ++ List.replicate (padding content) 0

def Assembler.headerOf (offset id : Nat) (content : List UInt8) : EntryHeader where
  offset := offset
  id := id.toUInt64
  idOffset := offset + 4
  wide := false
  body := ⟨padded content, offset + 8, .little⟩
  next := offset + 4 + (4 + (padded content).length)

variable {offset : Nat}

theorem sealed_eq (id : Nat) (content : List UInt8) :
    Assembler.sealed (littleBytes 4 id ++ content) =
      littleBytes 4 (4 + (Assembler.padded content).length) ++
        (littleBytes 4 id ++ Assembler.padded content) := by
  have count : 4 + (littleBytes 4 id ++ content).length = 8 + content.length := by
    rw [List.length_append, little_bytes_length]
    omega
  rw [Assembler.sealed, count, List.append_assoc, List.length_append, little_bytes_length]
  rfl

theorem reads_length (length : Nat) (short : length < 2 ^ 31) :
    Reads offset readLength (littleBytes 4 length) (false, length.toUInt64) := by
  have unescaped : length.toUInt64 ≠ 0xffffffff := by
    intro same
    have escape : length = 0xffffffff := word_eq (by omega) same
    omega
  rw [readLength, ← List.append_nil (littleBytes 4 length)]
  refine reads_bind (reads_fitting 4 length (by omega)) ?_
  rw [if_neg unescaped]
  exact reads_pure _

theorem reads_entry (kind : SectionKind) (start id : Nat) (body : List UInt8) (named : id < 2 ^ 32)
    (short : 4 + body.length < 2 ^ 31) :
    Reads offset (readEntry kind start false (4 + body.length).toUInt64) (littleBytes 4 id ++ body)
      ⟨start, id.toUInt64, offset, false, ⟨body, offset + 4, .little⟩,
        offset + (4 + body.length)⟩ := by
  intro rest
  have length : (littleBytes 4 id ++ body).length = 4 + body.length := by
    rw [List.length_append, little_bytes_length]
  have content : Reads offset (readBytes _) (littleBytes 4 id ++ body) _ := reads_bytes _
  have identified : (readWord 4).run ⟨littleBytes 4 id ++ body, offset, .little⟩ =
      (.ok id.toUInt64, ⟨body, offset + 4, .little⟩) := by
    rw [reads_fitting 4 id named body, little_bytes_length]
  have enough : ¬ (littleBytes 4 id ++ body ++ rest).length < 4 + body.length := by
    rw [List.length_append, length]
    omega
  rw [length] at content
  rw [readEntry, ReadM.run_bind, ReadM.run_get]
  dsimp only
  rw [word_nat _ (by omega), if_neg enough, run_reads content]
  have width : idWidth kind false = 4 := rfl
  simp only [width, identified]
  rfl

/-- The header of a sealed entry is read, and with it the whole of the entry. -/
theorem reads_header (kind : SectionKind) (id : Nat) (content : List UInt8) (named : id < 2 ^ 32)
    (short : (Assembler.sealed (littleBytes 4 id ++ content)).length < 2 ^ 31) :
    Reads offset (readHeader kind) (Assembler.sealed (littleBytes 4 id ++ content))
      (some (Assembler.headerOf offset id content)) := by
  rw [sealed_eq] at short ⊢
  simp only [List.length_append, little_bytes_length] at short
  rw [Assembler.headerOf]
  generalize Assembler.padded content = body at short ⊢
  have something : (4 + body.length).toUInt64 ≠ 0 := by
    intro same
    have nothing : 4 + body.length = 0 := word_eq (by omega) same
    omega
  intro rest
  have nonempty : (littleBytes 4 (4 + body.length) ++ (littleBytes 4 id ++ body) ++ rest).isEmpty =
      false := by
    simp [littleBytes]
  rw [readHeader, ReadM.run_bind, ReadM.run_get]
  simp only [nonempty, Bool.false_eq_true, if_false]
  refine reads_bind (reads_length _ (by omega)) ?_ rest
  rw [if_neg something, little_bytes_length]
  exact reads_map some (reads_entry kind offset id body named (by omega))

theorem header_of_next (id : Nat) (content : List UInt8) :
    (Assembler.headerOf offset id content).next =
      offset + (Assembler.sealed (littleBytes 4 id ++ content)).length := by
  rw [sealed_eq, List.length_append, List.length_append, little_bytes_length, little_bytes_length,
    ← Nat.add_assoc]
  rfl

/-- Wherever a section holds a sealed entry, its header is found. -/
theorem header_sealed {area : Section} {before after : List UInt8} {id : Nat} {content : List UInt8}
    (holds : area.data = before ++ Assembler.sealed (littleBytes 4 id ++ content) ++ after)
    (named : id < 2 ^ 32) (short : area.data.length < 2 ^ 31) :
    area.header .little before.length =
      .ok (some (Assembler.headerOf before.length id content)) := by
  have lengths := congrArg List.length holds
  rw [List.append_assoc, List.length_append, List.length_append] at lengths
  rw [Section.header, if_neg (by omega), holds, List.append_assoc, List.drop_left, ReadM.value,
    reads_header area.kind id content named (by omega)]

end Sealed

/-! The calls that assemble a section. -/
section Calls

inductive Assembler.Call where
  | cie (spec : CieSpec)
  | fde (cie : Nat) (start length : UInt64) (program : List UInt8)

namespace Assembler

def call (a : Assembler) : Call → Except AssemblyFault Assembler
  | .cie spec => .ok (a.cie spec).2
  | .fde cie start length program => Prod.snd <$> a.fde cie start length program

/-- What can be asked for at this point. A function needs a common entry that is there, and
addresses that its encoding has room for where they will stand. -/
def Call.Fits (a : Assembler) : Call → Prop
  | .cie spec => spec.Fits a.kind
  | .fde common start length _ => ∃ spec, a.cies.lookup common = some spec ∧
      AddressesFit (a.address + (a.data.length + 8).toUInt64) start length spec.effectiveEncoding

def Accepts (a : Assembler) : List Call → Prop
  | [] => True
  | call :: calls => call.Fits a ∧ ∀ next, a.call call = .ok next → next.Accepts calls

structure Grows (before after : Assembler) : Prop where
  kind : after.kind = before.kind
  address : after.address = before.address
  data : before.data <+: after.data

end Assembler

def Padded (program bytes : List UInt8) : Prop :=
  ∃ padding < 8, bytes = program ++ List.replicate padding 0

structure Cie.Keeps (cie : Cie) (spec : CieSpec) : Prop where
  version : cie.version = spec.version
  augmentationText : cie.augmentationText = spec.augmentation
  codeAlignment : cie.codeAlignment = spec.codeAlignment
  dataAlignment : cie.dataAlignment = spec.dataAlignment
  returnColumn : cie.returnColumn = spec.returnColumn
  signalFrame : cie.isSignalFrame = spec.augmentation.toList.contains 'S'
  fdeEncoding : cie.fdeEncoding = ⟨spec.effectiveEncoding⟩
  program : Padded spec.program cie.program

structure Fde.Keeps (fde : Fde) (cie : Nat) (start length : UInt64) (program : List UInt8) :
    Prop where
  cieOffset : fde.cieOffset = cie
  start : fde.start = start
  length : fde.length = length
  program : Padded program fde.program

def Assembler.Call.ReadBack (area : Section) (layout : Layout) : Call → EntryHeader → Prop
  | .cie spec, header => header.isCie area.kind ∧
      ∃ cie, header.cie area layout = .ok cie ∧ cie.Keeps spec
  | .fde common start length program, header => ¬ header.isCie area.kind ∧
      ∃ shared function, header.described area layout = .ok (shared, function) ∧
        function.Keeps common start length program

end Calls

/-! What one call does to the section. -/
section OneCall

variable {area : Section} {layout : Layout} {a : Assembler}

/-- The section is the one that is assembled, and the common entries written so far can be read in
it. -/
structure Assembler.Stands (a : Assembler) (area : Section) (layout : Layout) : Prop where
  kind : area.kind = a.kind
  address : area.address = a.address
  cies : ∀ offset spec, a.cies.lookup offset = some spec →
    offset < a.data.length ∧ spec.Fits a.kind ∧
      ∃ programOffset padding,
        area.cie layout offset = .ok (spec.entry offset programOffset padding)

theorem entry_keeps {spec : CieSpec} {kind : SectionKind} (fits : spec.Fits kind)
    (own programOffset padding : Nat) (brief : padding < 8) :
    (spec.entry own programOffset padding).Keeps spec where
  version := rfl
  augmentationText := rfl
  codeAlignment := rfl
  dataAlignment := rfl
  returnColumn := rfl
  signalFrame := entry_signal_frame fits own programOffset padding
  fdeEncoding := entry_fde_encoding fits own programOffset padding
  program := ⟨padding, brief, rfl⟩

theorem sealed_longer (id : Nat) (content : List UInt8) :
    content.length < (Assembler.sealed (littleBytes 4 id ++ content)).length := by
  rw [sealed_eq]
  simp only [List.length_append, little_bytes_length, Assembler.padded]
  omega

theorem cie_is_cie (kind : SectionKind) (offset : Nat) (content : List UInt8) :
    (Assembler.headerOf offset (Assembler.cieId kind) content).isCie kind = true := by
  cases kind <;> rfl

/-- A common entry is read where it was appended. -/
theorem cie_stands {spec : CieSpec} {after : List UInt8} (fits : spec.Fits area.kind)
    (size : layout.addressSize = 8) (short : area.data.length < 2 ^ 31)
    (holds : area.data =
      a.data ++ Assembler.sealed (Assembler.cieContent area.kind spec) ++ after) :
    ∃ header padding programOffset, area.header .little a.data.length = .ok (some header) ∧
      header.next = (a.data ++ Assembler.sealed (Assembler.cieContent area.kind spec)).length ∧
      header.isCie area.kind ∧ padding < 8 ∧
      header.cie area layout = .ok (spec.entry a.data.length programOffset padding) := by
  have named : Assembler.cieId area.kind < 2 ^ 32 := by cases area.kind <;> decide
  have lengths := congrArg List.length holds
  rw [cie_content_eq] at holds lengths ⊢
  simp only [List.length_append] at lengths
  have longer := sealed_longer (Assembler.cieId area.kind) spec.fields
  have parsed : ∃ programOffset, (readCie a.data.length area layout).value
      ⟨Assembler.padded spec.fields, a.data.length + 8, .little⟩ =
      .ok (spec.entry a.data.length programOffset (Assembler.padding spec.fields)) :=
    read_cie_back fits size (by omega) _ _
  obtain ⟨programOffset, parsed⟩ := parsed
  refine ⟨_, Assembler.padding spec.fields, programOffset, header_sealed holds named short, ?_,
    cie_is_cie _ _ _, padding_lt _, ?_⟩
  · rw [header_of_next, List.length_append]
  · rw [EntryHeader.cie, if_pos (cie_is_cie _ _ _)]
    exact parsed

def Assembler.fdeId (kind : SectionKind) (offset common : Nat) : Nat :=
  match kind with
  | .debugFrame => common
  | .ehFrame => offset + 4 - common

def CieSpec.fdeEntry (spec : CieSpec) (kind : SectionKind) (offset common : Nat)
    (addresses program : List UInt8) : List UInt8 :=
  Assembler.sealed
    (littleBytes 4 (Assembler.fdeId kind offset common) ++ spec.fdeFields addresses program)

theorem fde_id_lt (kind : SectionKind) {offset common : Nat} (earlier : common < offset)
    (short : offset < 2 ^ 31) : Assembler.fdeId kind offset common < 2 ^ 32 := by
  cases kind <;> simp only [Assembler.fdeId] <;> omega

theorem fde_is_no_cie (kind : SectionKind) {offset common : Nat} (content : List UInt8)
    (earlier : common < offset) (short : offset < 2 ^ 31) :
    (Assembler.headerOf offset (Assembler.fdeId kind offset common) content).isCie kind =
      false := by
  have below := (fde_id_lt kind earlier short).trans (by decide : 2 ^ 32 < 2 ^ 64)
  cases kind with
  | debugFrame =>
      refine decide_eq_false fun same => ?_
      have id : common = 0xffffffff := word_eq below same
      omega
  | ehFrame =>
      refine decide_eq_false fun same => ?_
      have id : offset + 4 - common = 0 := word_eq below same
      omega

theorem fde_points (kind : SectionKind) {offset common : Nat} (content : List UInt8)
    (earlier : common < offset) (short : offset < 2 ^ 31) :
    (Assembler.headerOf offset (Assembler.fdeId kind offset common) content).cieOffset kind =
      .ok common := by
  have value := word_nat _ ((fde_id_lt kind earlier short).trans (by decide))
  cases kind with
  | debugFrame => exact congrArg Except.ok value
  | ehFrame =>
      refine (if_pos ?_).trans (congrArg Except.ok ?_)
      · exact le_of_eq_of_le value (Nat.sub_le _ _)
      · refine (congrArg (offset + 4 - ·) value).trans ?_
        exact Nat.sub_sub_self (by omega)

theorem padded_fde_fields (spec : CieSpec) (addresses program : List UInt8) :
    Assembler.padded (spec.fdeFields addresses program) =
      spec.fdeFields addresses
        (program ++ List.replicate (Assembler.padding (spec.fdeFields addresses program)) 0) := by
  simp only [Assembler.padded, CieSpec.fdeFields, List.append_assoc]

theorem described_parts {header : EntryHeader} {common : Nat} {cie : Cie} {fde : Fde}
    (points : header.cieOffset area.kind = .ok common)
    (shared : area.cie layout common = .ok cie) (own : header.fde cie area layout = .ok fde) :
    header.described area layout = .ok (cie, fde) := by
  simp only [EntryHeader.described, points, shared, own, bind, Except.bind, pure, Except.pure]

/-- A function is read where it was appended, if the common entry is read. -/
theorem fde_stands {common : Nat} {spec : CieSpec} {start length : UInt64}
    {before addresses program after : List UInt8} (fits : spec.Fits area.kind)
    (earlier : common < before.length) (short : area.data.length < 2 ^ 31)
    (room : AddressesFit (area.address + (before.length + 8).toUInt64) start length
      spec.effectiveEncoding)
    (written : Assembler.addresses spec.effectiveEncoding
      (area.address + (before.length + 8).toUInt64) start length = .ok addresses)
    (shared : ∃ programOffset padding,
      area.cie layout common = .ok (spec.entry common programOffset padding))
    (holds : area.data =
      before ++ spec.fdeEntry area.kind before.length common addresses program ++ after) :
    ∃ header, area.header .little before.length = .ok (some header) ∧
      header.next =
        (before ++ spec.fdeEntry area.kind before.length common addresses program).length ∧
      (Assembler.Call.fde common start length program).ReadBack area layout header := by
  have lengths := congrArg List.length holds
  simp only [List.length_append] at lengths
  have near : before.length < 2 ^ 31 := by omega
  obtain ⟨cieProgram, padding, shared⟩ := shared
  have base : area.address = (area.bases layout).sectionAddress := rfl
  rw [base] at room written
  obtain ⟨programOffset, parsed⟩ := read_fde_back fits room written
    (program ++ List.replicate (Assembler.padding (spec.fdeFields addresses program)) 0)
    before.length common cieProgram padding
  rw [← padded_fde_fields] at parsed
  let header := Assembler.headerOf before.length (Assembler.fdeId area.kind before.length common)
    (spec.fdeFields addresses program)
  have own : header.fde (spec.entry common cieProgram padding) area layout = .ok _ := parsed
  have described : header.described area layout = .ok _ :=
    described_parts (fde_points area.kind _ earlier near) shared own
  have found := header_sealed holds (fde_id_lt area.kind earlier near) short
  refine ⟨header, found, ?_, ?_, _, _, described, rfl, rfl, rfl, _, padding_lt _, rfl⟩
  · rw [header_of_next, List.length_append]
    rfl
  · rw [fde_is_no_cie area.kind _ earlier near]
    decide

/-- A common entry that was appended is found with those that stood there before. -/
theorem stands_cie {spec : CieSpec} (stands : a.Stands area layout) (fits : spec.Fits a.kind)
    (readable : ∃ programOffset padding,
      area.cie layout a.data.length = .ok (spec.entry a.data.length programOffset padding)) :
    (a.cie spec).2.Stands area layout where
  kind := stands.kind
  address := stands.address
  cies := by
    intro offset known found
    have longer : a.data.length < (a.cie spec).2.data.length := by
      simp only [Assembler.cie, cie_content_eq, List.length_append]
      have := sealed_longer (Assembler.cieId a.kind) spec.fields
      omega
    have appended : (a.cie spec).2.cies = a.cies ++ [(a.data.length, spec)] := rfl
    rw [appended, List.lookup_append] at found
    cases earlier : a.cies.lookup offset with
    | some known' =>
        rw [earlier] at found
        cases found
        obtain ⟨before, rest⟩ := stands.cies offset known earlier
        exact ⟨before.trans longer, rest⟩
    | none =>
        rw [earlier] at found
        simp only [Option.none_or, List.lookup_cons, List.lookup_nil] at found
        split at found
        · next same =>
          cases found
          rw [eq_of_beq same]
          exact ⟨longer, fits, readable⟩
        · cases found

theorem fde_assembled {common : Nat} {spec : CieSpec} {start length : UInt64} (program : List UInt8)
    (known : a.cies.lookup common = some spec)
    (room : AddressesFit (a.address + (a.data.length + 8).toUInt64) start length
      spec.effectiveEncoding) :
    ∃ addresses, Assembler.addresses spec.effectiveEncoding
        (a.address + (a.data.length + 8).toUInt64) start length = .ok addresses ∧
      a.call (.fde common start length program) = .ok { a with
        data := a.data ++ spec.fdeEntry a.kind a.data.length common addresses program } := by
  obtain ⟨addresses, written⟩ := addresses_written room
  refine ⟨addresses, written, ?_⟩
  rw [Assembler.call, Assembler.fde, known]
  simp only [written, CieSpec.fdeEntry, CieSpec.fdeFields, ← List.append_assoc]
  cases same : a.kind <;> rfl

theorem header_gives_cie {offset : Nat} {header : EntryHeader} (little : layout.endian = .little)
    (found : area.header .little offset = .ok (some header)) :
    area.cie layout offset = header.cie area layout := by
  rw [Section.cie, little, found]
  rfl

/-- One call: it succeeds, it only appends, and in every section that goes on from there its entry
is read back. -/
theorem call_stands (call : Assembler.Call) (fits : call.Fits a) (little : layout.endian = .little)
    (size : layout.addressSize = 8) :
    ∃ next, a.call call = .ok next ∧ a.Grows next ∧
      ∀ area : Section, next.data <+: area.data → area.data.length < 2 ^ 31 →
        a.Stands area layout → next.Stands area layout ∧
          ∃ header, area.header .little a.data.length = .ok (some header) ∧
            header.next = next.data.length ∧ call.ReadBack area layout header := by
  cases call with
  | cie spec =>
      refine ⟨_, rfl, ⟨rfl, rfl, List.prefix_append _ _⟩, ?_⟩
      rintro area ⟨after, holds⟩ short stands
      have fits : spec.Fits area.kind := by
        rw [stands.kind]
        exact fits
      have appended : (a.cie spec).2.data =
          a.data ++ Assembler.sealed (Assembler.cieContent area.kind spec) := by
        rw [stands.kind]
        rfl
      rw [appended] at holds ⊢
      obtain ⟨header, padding, programOffset, found, next, shared, brief, parsed⟩ :=
        cie_stands fits size short holds.symm
      have readable := (header_gives_cie little found).trans parsed
      exact ⟨stands_cie stands (stands.kind ▸ fits) ⟨programOffset, padding, readable⟩, header,
        found, next, shared, _, parsed, entry_keeps fits _ _ _ brief⟩
  | fde common start length program =>
      obtain ⟨spec, known, room⟩ := fits
      obtain ⟨addresses, written, assembled⟩ := fde_assembled program known room
      refine ⟨_, assembled, ⟨rfl, rfl, List.prefix_append _ _⟩, ?_⟩
      -- Where the addresses stand and what the id is depend on the kind and the address.
      rintro ⟨kind, data, address⟩ ⟨after, holds⟩ short ⟨rfl, rfl, cies⟩
      obtain ⟨earlier, fits, shared⟩ := cies common spec known
      obtain ⟨header, found, next, kept⟩ :=
        fde_stands fits earlier short room written shared holds.symm
      refine ⟨⟨rfl, rfl, fun offset spec known => ?_⟩, header, found, next, kept⟩
      obtain ⟨before, rest⟩ := cies offset spec known
      exact ⟨before.trans_le (List.prefix_append _ _).length_le, rest⟩

end OneCall

/-! Whole runs. -/
section Runs

variable {layout : Layout}

theorem data_within_finish (a : Assembler) : a.data <+: a.finish := by
  rw [Assembler.finish]
  split
  · exact List.prefix_append _ _
  · exact List.prefix_rfl

/-- What is assembled last is followed by nothing more. -/
theorem finish_ends {a : Assembler} {area : Section} (whole : area.data = a.finish) :
    area.header .little a.data.length = .ok none := by
  rw [Assembler.finish] at whole
  cases same : a.kind with
  | debugFrame =>
      rw [same] at whole
      change area.data = a.data at whole
      rw [← whole]
      exact header_at_end area .little
  | ehFrame =>
      rw [same] at whole
      have inside : ¬ area.data.length < a.data.length := by
        rw [whole]
        simp
      rw [Section.header, if_neg inside, whole, List.drop_left]
      rfl

-- The section is the finished one from the start, and the walk over it is taken apart call by call:
-- what the assembler still has to write is in the section already, so only `Stands` has to be kept.
theorem calls_stand (calls : List Assembler.Call) (a : Assembler) (accepted : a.Accepts calls)
    (little : layout.endian = .little) (size : layout.addressSize = 8) :
    ∃ last, calls.foldlM Assembler.call a = .ok last ∧ a.Grows last ∧
      ∀ area : Section, area.data = last.finish → area.data.length < 2 ^ 31 →
        a.Stands area layout → ∀ walk, area.Walked .little a.data.length walk →
          walk.stopped = none ∧ List.Forall₂ (·.ReadBack area layout ·) calls walk.headers := by
  induction calls generalizing a with
  | nil =>
      refine ⟨a, rfl, ⟨rfl, rfl, List.prefix_rfl⟩, fun area whole _ _ walk walked => ?_⟩
      have ended := finish_ends whole
      cases walked with
      | stopped broken => cases ended.symm.trans broken
      | ended nothing => exact ⟨rfl, .nil⟩
      | entered found tail => cases ended.symm.trans found
  | cons call calls ih =>
      obtain ⟨fits, later⟩ := accepted
      obtain ⟨next, called, grows, reads⟩ := call_stands call fits little size
      obtain ⟨last, rest, grows', walks⟩ := ih next (later next called)
      refine ⟨last, ?_, ?_, fun area whole short stands walk walked => ?_⟩
      · rw [List.foldlM_cons, called]
        exact rest
      · exact ⟨grows'.kind.trans grows.kind, grows'.address.trans grows.address,
          grows.data.trans grows'.data⟩
      · have within : next.data <+: area.data := by
          rw [whole]
          exact grows'.data.trans (data_within_finish last)
        obtain ⟨stands, header, here, behind, kept⟩ := reads area within short stands
        cases walked with
        | stopped broken => cases here.symm.trans broken
        | ended nothing => cases here.symm.trans nothing
        | entered found tail =>
            cases here.symm.trans found
            rw [behind] at tail
            obtain ⟨stopped, headers⟩ := walks area whole short stands _ tail
            exact ⟨stopped, .cons kept headers⟩

/-- Parsing undoes assembling: calls that are accepted succeed, and the walk over the finished
section meets one entry for each of them, in their order, and then the end; each entry is read back
as it was asked for. -/
theorem parsing_undoes_assembling (kind : SectionKind) (address : UInt64)
    (calls : List Assembler.Call) (layout : Layout) (little : layout.endian = .little)
    (size : layout.addressSize = 8) (accepted : Assembler.Accepts { kind, address } calls) :
    ∃ last, calls.foldlM Assembler.call { kind, address } = .ok last ∧
      (last.finish.length < 2 ^ 31 →
        let area : Section := ⟨kind, last.finish, address⟩
        (area.walk layout.endian).stopped = none ∧
          List.Forall₂ (fun call header => call.ReadBack area layout header) calls
            (area.walk layout.endian).headers) := by
  obtain ⟨last, assembled, -, walks⟩ :=
    calls_stand calls { kind, address } accepted little size
  refine ⟨last, assembled, fun short => ?_⟩
  rw [little]
  refine walks ⟨kind, last.finish, address⟩ rfl short ⟨rfl, rfl, ?_⟩ _ (walk_walked _ _)
  rintro offset spec found
  cases found

def sharedEntry : List Assembler.Call :=
  [.cie { augmentation := "zR", fdeEncoding := 0x1b }, .fde 0 0x401000 0x20 [0x0e, 0x10],
    .fde 0 0x401020 0x08 []]

theorem shared_entry_accepted :
    Assembler.Accepts ⟨.ehFrame, 0x402000, [], []⟩ sharedEntry := by
  refine ⟨⟨.inl rfl, .inr ⟨['R'], by decide, by simp⟩, by decide, by decide, by decide,
    by decide⟩, ?_⟩
  rintro _ ⟨⟩
  refine ⟨⟨_, rfl, .relative (by decide +kernel) (by decide)⟩, ?_⟩
  rintro _ ⟨⟩
  refine ⟨⟨_, rfl, .relative (by decide +kernel) (by decide)⟩, ?_⟩
  rintro _ -
  trivial

theorem parsing_undoes_assembling_shared_entry :
    Assembler.Accepts ⟨.ehFrame, 0x402000, [], []⟩ sharedEntry ∧
    ∃ last, sharedEntry.foldlM Assembler.call ⟨.ehFrame, 0x402000, [], []⟩ = .ok last ∧
      last.finish.length = 76 ∧
      let area : Section := ⟨.ehFrame, last.finish, 0x402000⟩
      (area.walk .little).stopped = none ∧
        List.Forall₂ (fun call header => call.ReadBack area {} header) sharedEntry
          (area.walk .little).headers := by
  refine ⟨shared_entry_accepted, ?_⟩
  obtain ⟨last, assembled, reads⟩ :=
    parsing_undoes_assembling .ehFrame 0x402000 sharedEntry {} rfl rfl shared_entry_accepted
  have size : (sharedEntry.foldlM Assembler.call ⟨.ehFrame, 0x402000, [], []⟩).map
      (·.finish.length) = .ok 76 := by
    decide +kernel
  rw [assembled] at size
  have length : last.finish.length = 76 := Except.ok.inj size
  exact ⟨last, assembled, length, reads (by omega)⟩

end Runs

end CallFrame
