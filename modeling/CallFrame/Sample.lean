import CallFrame.Backtrace

/-!
A process to try the unwinder on. It was stopped in a signal handler. The handler interrupted
`worker`, which was called by `main`.
-/

namespace CallFrame.Sample

/-- The frame descriptions of the program. `main` declares its return address lost, `worker` has a
frame pointer and an early epilogue, and the trampoline finds the interrupted registers where the
signal frame has them. -/
def ehFrame : List UInt8 := [
  -- common entry: the frame address is the stack pointer plus 8, the return address is below it
  0x14, 0x00, 0x00, 0x00, 0x00, 0x00, 0x00, 0x00,
  0x01, 0x7a, 0x52, 0x00, 0x01, 0x78, 0x10, 0x01,
  0x03, 0x0c, 0x07, 0x08, 0x90, 0x01, 0x00, 0x00,
  -- main
  0x10, 0x00, 0x00, 0x00, 0x1c, 0x00, 0x00, 0x00,
  0x00, 0x10, 0x40, 0x00, 0x00, 0x01, 0x00, 0x00,
  0x00, 0x07, 0x10, 0x00,
  -- worker
  0x20, 0x00, 0x00, 0x00, 0x30, 0x00, 0x00, 0x00,
  0x00, 0x11, 0x40, 0x00, 0x00, 0x01, 0x00, 0x00,
  0x00, 0x41, 0x0e, 0x10, 0x86, 0x02, 0x43, 0x0d,
  0x06, 0x02, 0x40, 0x0a, 0x0c, 0x07, 0x08, 0x41,
  0x0b, 0x00, 0x00, 0x00,
  -- common entry of signal trampolines
  0x20, 0x00, 0x00, 0x00, 0x00, 0x00, 0x00, 0x00,
  0x01, 0x7a, 0x52, 0x53, 0x00, 0x01, 0x78, 0x10,
  0x01, 0x03, 0x0f, 0x04, 0x77, 0xa0, 0x01, 0x06,
  0x10, 0x10, 0x03, 0x77, 0xa8, 0x01, 0x10, 0x06,
  0x03, 0x77, 0xf8, 0x00,
  -- __restore_rt
  0x10, 0x00, 0x00, 0x00, 0x28, 0x00, 0x00, 0x00,
  0x00, 0x12, 0x40, 0x00, 0x10, 0x00, 0x00, 0x00,
  0x00, 0x00, 0x00, 0x00,
  -- handler
  0x10, 0x00, 0x00, 0x00, 0x8c, 0x00, 0x00, 0x00,
  0x00, 0x13, 0x40, 0x00, 0x00, 0x01, 0x00, 0x00,
  0x00, 0x00, 0x00, 0x00,
  -- end of the section
  0x00, 0x00, 0x00, 0x00]

def module : LoadedModule where
  name := "a.out"
  ehFrame := some { kind := .ehFrame, data := ehFrame, address := 0x402000 }

def symbols : Symbols := [
  (0x401000, "main"),
  (0x401100, "worker"),
  (0x401200, "__restore_rt"),
  (0x401300, "handler")]

/-- The stopped machine. The handler returns to the trampoline, whose signal frame starts above the
return address and holds the interrupted registers. -/
def machine : Machine :=
  let start : Machine := {
    registers := [(Amd64.rip, 0x401305), (Amd64.rsp, 0x7ff000), (Amd64.rbp, 0x7ff500)] }
  let signalFrame : UInt64 := 0x7ff008
  start
    |>.write 0x401200 Amd64.signalReturnCode
    |>.writeWord 0x7ff000 0x401200
    -- what the interrupted code had in its base pointer, stack pointer and instruction pointer
    |>.writeWord (signalFrame + 120) 0x7ff210
    |>.writeWord (signalFrame + 160) 0x7ff200
    |>.writeWord (signalFrame + 168) 0x401146
    -- the frame of worker: the base pointer it saved, and where it returns to
    |>.writeWord 0x7ff210 0x7ff300
    |>.writeWord 0x7ff218 0x401050

def index : CfiIndex := module.index.1

def process : StoppedProcess where
  machine
  arch := Amd64.linux
  cfi := ({} : CfiTable).add index

def report : List String :=
  let frames := (process.backtrace [] 63 |>.run {}).1
  s!"loaded CFI, fdes={index.size}, dropped={index.dropped}" :: backtraceLines symbols frames

end CallFrame.Sample
