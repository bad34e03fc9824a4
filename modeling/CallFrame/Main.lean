import CallFrame.Sample

/-!
The command line: prints the backtrace of the sample process.
-/

def main : IO Unit :=
  CallFrame.Sample.report.forM IO.println
