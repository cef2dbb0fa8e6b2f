import SandboxHost.Json.Decoder
import SandboxHost.Json.Parser

namespace SandboxHost

/-- What the guest may use of the process: standard streams, directories, environment, arguments. -/
structure Grants where
  stdin : Bool := false
  stdout : Bool := false
  stderr : Bool := false
  readDirs : List String := []
  writeDirs : List String := []
  environment : List (String × String) := []
  args : List String := []
  deriving DecidableEq

namespace Grants

def none : Grants := {}

def stdio : Grants := { stdin := true, stdout := true, stderr := true }

def terminal : Grants := { stdio with environment := [("TERM", "xterm-256color")] }

def fieldNames : List String :=
  ["stdin", "stdout", "stderr", "preopened_dirs_ro", "preopened_dirs_rw", "env_vars", "args"]

def toJson (g : Grants) : Json :=
  let texts (l : List String) : Json := .arr (l.map .str)
  .obj [("stdin", .bool g.stdin), ("stdout", .bool g.stdout), ("stderr", .bool g.stderr),
    ("preopened_dirs_ro", texts g.readDirs), ("preopened_dirs_rw", texts g.writeDirs),
    ("env_vars", .arr (g.environment.map fun (k, v) => .arr [.str k, .str v])),
    ("args", texts g.args)]

def ofJson? (j : Json) : Option Grants := do
  match ← j.fields? fieldNames with
  | [stdin, stdout, stderr, readDirs, writeDirs, environment, args] =>
    let assignment := Json.pair? Json.string? Json.string?
    return {
      stdin := ← Json.optional Json.bool? false stdin
      stdout := ← Json.optional Json.bool? false stdout
      stderr := ← Json.optional Json.bool? false stderr
      readDirs := ← Json.optional (Json.list? Json.string?) [] readDirs
      writeDirs := ← Json.optional (Json.list? Json.string?) [] writeDirs
      environment := ← Json.optional (Json.list? assignment) [] environment
      args := ← Json.optional (Json.list? Json.string?) [] args }
  | _ => failure

def shape : Json.Shape := .ofFields fieldNames

def parse? (text : String) : Option Grants := (Json.parseAs? shape text).bind ofJson?

end Grants

structure Config where
  grants : Grants
  maxMemory : UInt64
  fuelLimit : Option UInt64
  optimizationLevel : UInt8
  enableSimd : Bool
  smallStringSize : UInt64
  cachePath : Option String
  deriving DecidableEq

namespace Config

/-- Standard streams, one GiB of memory, no fuel limit. -/
def standard : Config :=
  { grants := .stdio, maxMemory := 1073741824, fuelLimit := none, optimizationLevel := 2,
    enableSimd := true, smallStringSize := 8192, cachePath := none }

def minimal : Config :=
  { standard with grants := .none, maxMemory := 67108864, fuelLimit := some 1000000000 }

def terminal : Config := { standard with grants := .terminal }

def development : Config := { standard with optimizationLevel := 0 }

def withOptimization (c : Config) (level : UInt8) : Config :=
  { c with optimizationLevel := min level 3 }

def withSmallStringSize (c : Config) (size : UInt64) : Config :=
  { c with smallStringSize := max size 1 }

def fieldNames : List String :=
  ["capabilities", "max_memory", "fuel_limit", "optimization_level", "enable_simd",
    "small_string_size", "cache_path"]

def toJson (c : Config) : Json :=
  .obj [("capabilities", c.grants.toJson), ("max_memory", .int c.maxMemory.toNat),
    ("fuel_limit", (c.fuelLimit.map fun n => Json.int n.toNat).getD .null),
    ("optimization_level", .int c.optimizationLevel.toNat), ("enable_simd", .bool c.enableSimd),
    ("small_string_size", .int c.smallStringSize.toNat),
    ("cache_path", (c.cachePath.map Json.str).getD .null)]

def ofJson? (j : Json) : Option Config := do
  match ← j.fields? fieldNames with
  | [grants, maxMemory, fuelLimit, optimizationLevel, enableSimd, smallStringSize, cachePath] =>
    return {
      grants := ← Json.optional Grants.ofJson? standard.grants grants
      maxMemory := ← Json.optional Json.uint64? standard.maxMemory maxMemory
      fuelLimit := ← Json.optional (Json.nullable? Json.uint64?) standard.fuelLimit fuelLimit
      optimizationLevel := ← Json.optional Json.uint8? standard.optimizationLevel optimizationLevel
      enableSimd := ← Json.optional Json.bool? standard.enableSimd enableSimd
      smallStringSize := ← Json.optional Json.uint64? standard.smallStringSize smallStringSize
      cachePath := ← Json.optional (Json.nullable? Json.string?) standard.cachePath cachePath }
  | _ => failure

def shape : Json.Shape := .ofFields fieldNames [("capabilities", Grants.shape)]

def parse? (text : String) : Option Config := (Json.parseAs? shape text).bind ofJson?

end Config

end SandboxHost
