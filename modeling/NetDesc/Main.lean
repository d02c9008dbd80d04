import NetDesc.CommandLine.Run

open NetDesc.CommandLine

def readIfThere (path : String) : IO (Option (String × String)) := do
  try
    return some (path, ← IO.FS.readFile path)
  catch _ => return none

def main (words : List String) : IO UInt32 := do
  let paths := ((Command.parse? words).map Command.inputs).getD []
  let files ← paths.filterMapM readIfThere
  let outcome := NetDesc.CommandLine.run words files
  for (path, text) in outcome.files do
    IO.FS.writeFile path text
  IO.print outcome.output.render
  for message in outcome.messages do
    IO.eprintln message
  return outcome.exitCode
