import CallFrame.StoppedProcess

/-!
A backtrace: frame after frame from the innermost one, until one has no caller or its caller is
out of reach.
-/

namespace CallFrame

/-- Functions by first address, ascending. -/
abbrev Symbols := List (UInt64 × String)

def Symbols.name (symbols : Symbols) (pc : UInt64) : String :=
  ((symbols.reverse.find? fun symbol => symbol.1 ≤ pc).map (·.2)).getD "??"

structure FrameReport where
  level : Nat
  pc : Except Fault UInt64
  kind : Option FrameKind
  cfa : Except Fault UInt64
  id : Except Fault FrameId
  /-- Registers that were asked for. -/
  registers : List (Except Fault UInt64)
  reason : Option StopReason
  /-- What was worth a warning since the frame before. -/
  warnings : List Warning

def takeWarnings : SessionM (List Warning) :=
  modifyGet fun session => (session.warnings, { session with warnings := [] })

namespace StoppedProcess

def inspect (p : StoppedProcess) (shown : List Register) (level : Nat) :
    SessionM FrameReport := do
  let pc ← (p.readRegister level p.arch.pc).run
  let kind ← p.unwinder.frameKind level
  let cfa ← (p.unwinder.computeCfa level).run
  let id ← (p.unwinder.frameId level).run
  let registers ← shown.mapM fun r => (p.readRegister level r).run
  let reason ← p.unwinder.stopReason level
  return { level, pc, kind, cfa, id, registers, reason, warnings := ← takeWarnings }

/-- Inspects the outermost frame of the chain and, unless unwinding stops there, its caller, and so
on; at most `limit + 1` frames. -/
def backtrace (p : StoppedProcess) (shown : List Register) :
    (limit : Nat) → SessionM (List FrameReport)
  | 0 => return [← p.inspect shown (← get).chain.outermost]
  | limit + 1 => do
    let report ← p.inspect shown (← get).chain.outermost
    if report.reason.isSome then return [report]
    else
      modify fun session => { session with chain := session.chain.pushCaller }
      return report :: (← p.backtrace shown limit)

end StoppedProcess

namespace FrameReport

def symbol (report : FrameReport) (symbols : Symbols) : String :=
  match report.pc with
  | .ok pc => symbols.name pc
  | .error _ => "??"

def line (report : FrameReport) (symbols : Symbols) : String :=
  let pc := match report.pc with
    | .ok pc => hex pc.toNat
    | .error _ => "??"
  let place := s!"#{report.level} {pc} in {report.symbol symbols}"
  match report.kind, report.cfa with
  | some kind, .ok cfa => s!"{place} cfa={hex cfa.toNat} {kind.text}"
  | _, _ => place

end FrameReport

def backtraceLines (symbols : Symbols) (reports : List FrameReport) : List String :=
  reports.map (·.line symbols) ++
    reports.filterMap fun report => report.reason.map (·.message)

end CallFrame
