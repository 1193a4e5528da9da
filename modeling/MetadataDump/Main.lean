import MetadataDump.Command.Run

namespace MetadataDump

def orElse {α : Type} (missing : α) (action : IO α) : IO α :=
  try action catch _ => return missing

def machineFiles : Files IO where
  read path := orElse none (some <$> IO.FS.readBinFile path)
  create path := orElse false (do IO.FS.writeFile path ""; return true)
  write path content := orElse false (do IO.FS.writeFile path content; return true)

end MetadataDump

open scoped MetadataDump.Places in
def main (args : List String) : IO UInt32 := do
  let result ← MetadataDump.Command.run MetadataDump.machineFiles args
  IO.print result.output
  return result.exitCode.toUInt32
