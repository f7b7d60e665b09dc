import CorrelationPlot.Cli.Run
import CorrelationPlot.Sketch.Raster

/-!
The program: it reads the files that the options name, runs, and writes what the run asks for.
-/
namespace CorrelationPlot.Cli

def readStream (stream : IO.FS.Stream) : IO Contents := do
  try return .bytes (← stream.readBinToEnd)
  catch _ => return .unreadable

def readFile (path : String) : IO Contents := do
  let file? ← try pure (some (← IO.FS.Handle.mk path .read)) catch _ => pure none
  match file? with
  | some file => readStream (.ofHandle file)
  | none => return .missing

def readFiles (o : Options) : IO Files := gather (IO.getStdin >>= readStream) readFile o

def Picture.bytes (p : Picture) : ByteArray :=
  match p.format with
  | .png => p.sketch.png
  | .svg => p.sketch.svg.toUTF8

/-- Writes the picture, if there is one; a file that cannot be written is a fault of its own. -/
def writePicture (o : Outcome) : IO Outcome := do
  match o.picture with
  | none => return o
  | some p =>
    try
      IO.FS.writeBinFile p.path p.bytes
      return o
    catch _ => return o.unwritten p

def reportFault (f : RunFault) : IO Unit := do
  IO.eprintln f.line
  unless f.causes = [] do
    IO.eprintln "\nCaused by:"
    for cause in f.causes do
      IO.eprintln ("    " ++ cause)

def execute (o : Options) : IO UInt32 := do
  let outcome := run o (← readFiles o)
  for field in outcome.nonNumeric do
    IO.eprintln (" WARN correlating a non-numeric field field=" ++ field)
  IO.print outcome.output
  (← IO.getStdout).flush
  let outcome ← writePicture outcome
  outcome.fault.forM reportFault
  return UInt32.ofNat outcome.code

def programName : IO String := do
  return (← IO.appPath).fileName.getD "correlation-plot"

end CorrelationPlot.Cli

open CorrelationPlot.Cli in
def main (arguments : List String) : IO UInt32 := do
  match Request.ofArguments arguments with
  | .error f =>
    IO.eprintln ("error: " ++ f.message ++ "\n\nFor more information, try '--help'.")
    return 2
  | .ok .help =>
    IO.print (help (← programName))
    return 0
  | .ok (.run o) => execute o
