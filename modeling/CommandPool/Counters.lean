import CommandPool.Binary64.Text
import CommandPool.Log.Entry
import CommandPool.Text.Quoted

/-!
# Counters

Five counters tell how a run went.  They only ever grow, and nothing bounds them.  Counters of 64
bits count as these do, as long as none of them has come to 2 ^ 64 and begun again at zero.
-/

namespace CommandPool

/-- What is counted. -/
inductive Counter where
  /-- A node succeeded. -/
  | success
  /-- A node failed, or a line was no command. -/
  | fail
  /-- A throttled node was tried again after its delay. -/
  | retryOp
  /-- The store was asked for something. -/
  | storageOp
  /-- A local file was read, written or removed. -/
  | fileOp
  deriving DecidableEq, Repr

namespace Counter

/-- All counters, in the order in which they are shown. -/
def all : List Counter := [.success, .fail, .retryOp, .storageOp, .fileOp]

/-- The name of a counter. -/
def name : Counter → String
  | .success => "success"
  | .fail => "fail"
  | .retryOp => "retry_op"
  | .storageOp => "storage_op"
  | .fileOp => "file_op"

/-- The counter with the given name. -/
def ofName? (s : String) : Option Counter := all.find? (·.name == s)

/-! ## Reading a counter's name -/

/-- What stands where the name of a counter is expected. -/
inductive Written where
  | null
  | boolean (b : Bool)
  /-- A whole number of 64 bits, with a sign or without. -/
  | integer (n : Int)
  /-- Any other number, as the nearest one of this kind. -/
  | decimal (x : Binary64)
  | text (s : String)
  | list
  /-- A record with one member, whose name stands for the counter. -/
  | single (name : String) (value : Written)
  /-- A record with no member, or with several. -/
  | record
  deriving Repr

/-- What a written value is called. -/
def Written.kind : Written → String
  | .null => "null"
  | .boolean b => "boolean `" ++ toString b ++ "`"
  | .integer n => "integer `" ++ toString n ++ "`"
  | .decimal x => "floating point `" ++ x.compactText ++ "`"
  | .text s => "string " ++ Text.quoted s
  | .list => "sequence"
  | .single .. => "map"
  | .record => "map"

/-- The counter of a name, or that there is none. -/
def named (s : String) : Except String Counter :=
  match ofName? s with
  | some c => .ok c
  | none =>
    .error ("unknown variant `" ++ s ++ "`, expected one of "
      ++ ", ".intercalate (all.map fun c => "`" ++ c.name ++ "`"))

/-- The counter that is written: by its name, or as a record of one member that
has this name and no value. -/
def read : Written → Except String Counter
  | .text s => named s
  | .single s value => do
    let c ← named s
    match value with
    | .null => .ok c
    | v => .error ("invalid type: " ++ v.kind ++ ", expected unit")
  | .record => .error "invalid value: map, expected map with a single key"
  | v => .error ("invalid type: " ++ v.kind ++ ", expected string or map")

end Counter

/-! ## Values of the counters -/

/-- The values of the five counters. -/
structure Counters where
  success : Nat
  fail : Nat
  retryOp : Nat
  storageOp : Nat
  fileOp : Nat
  deriving DecidableEq, Repr

namespace Counters

/-- All counters at zero. -/
def zero : Counters := ⟨0, 0, 0, 0, 0⟩

/-- The value of one counter. -/
def get (s : Counters) : Counter → Nat
  | .success => s.success
  | .fail => s.fail
  | .retryOp => s.retryOp
  | .storageOp => s.storageOp
  | .fileOp => s.fileOp

/-- One counter increased by `n`. -/
def add (s : Counters) (c : Counter) (n : Nat) : Counters :=
  match c with
  | .success => { s with success := s.success + n }
  | .fail => { s with fail := s.fail + n }
  | .retryOp => { s with retryOp := s.retryOp + n }
  | .storageOp => { s with storageOp := s.storageOp + n }
  | .fileOp => { s with fileOp := s.fileOp + n }

/-- One counter increased by one. -/
def bump (s : Counters) (c : Counter) : Counters := s.add c 1

theorem get_add (s : Counters) (c d : Counter) (n : Nat) :
    (s.add c n).get d = s.get d + if c = d then n else 0 := by
  cases c <;> cases d <;> simp [add, get]

/-- The counters with their names. -/
def fields (s : Counters) : List (String × Nat) := Counter.all.map fun c => (c.name, s.get c)

/-- The entry that closes a run. -/
def summary (s : Counters) : Log.Entry :=
  ⟨.info, .counters, "run complete", s.fields.map fun f => (f.1, .number f.2), ["elapsed"]⟩

end Counters

end CommandPool
