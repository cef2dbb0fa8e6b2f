namespace SandboxHost.FileName

def last (path : String) : List Char := (path.toList.reverse.takeWhile (· ≠ '/')).reverse

/-- The part before the last dot, unless that dot comes first. -/
def stem (path : String) : String :=
  let name := last path
  let before := (name.reverse.dropWhile (· ≠ '.')).drop 1
  if before.isEmpty then .ofList name else .ofList before.reverse

end SandboxHost.FileName
