import CommandPool.Settings

/-!
# Arguments of the command line

Arguments are options, and after them the words of one command.  From the first
word of the command on nothing is an option any more, so a command may have
words that look like one.

```text
args    := option* [ "--" ] word*
option  := "-n" n | "--numworkers" n       workers
         | "-c" n | "--chunk-size" n       mebibytes of one part of an upload
         | "-r" n | "--retries" n          retries of a throttled command
         | "-f" p | "--file" p             file of command lines, - for the input
         | "--store-root" d                root of the store
         | "--json-logs" | "-h" | "--help" | "-V" | "--version"
```

A long option may have its value after `=`.  Short ones may be written together,
and the rest of such a cluster is the value of the first one that takes a value.
An argument that begins with a dash and is no option begins the command.

The first fault from left to right counts.  A value that is an argument of its
own is judged after the shape of the argument behind it.  The environment gives
the values of options that are absent, and only then what is missing or
contradicts itself is looked for.
-/

namespace CommandPool.Cli

/-! ## Options -/

/-- What an argument can ask for. -/
inductive Opt where
  | workers
  | chunkSize
  | retries
  | file
  | storeRoot
  | jsonLogs
  | help
  | version
  deriving DecidableEq, Repr

namespace Opt

/-- All options. -/
def all : List Opt :=
  [.workers, .chunkSize, .retries, .file, .storeRoot, .jsonLogs, .help, .version]

/-- The long name of an option. -/
def long : Opt → String
  | .workers => "numworkers"
  | .chunkSize => "chunk-size"
  | .retries => "retries"
  | .file => "file"
  | .storeRoot => "store-root"
  | .jsonLogs => "json-logs"
  | .help => "help"
  | .version => "version"

/-- The letter of an option, if it has one. -/
def letter? : Opt → Option Char
  | .workers => some 'n'
  | .chunkSize => some 'c'
  | .retries => some 'r'
  | .file => some 'f'
  | .help => some 'h'
  | .version => some 'V'
  | _ => none

/-- The option takes a value. -/
def takesValue : Opt → Bool
  | .jsonLogs => false
  | .help => false
  | .version => false
  | _ => true

/-- The option with the given long name. -/
def ofLong? (name : String) : Option Opt := all.find? (·.long == name)

/-- The option with the given letter. -/
def ofLetter? (c : Char) : Option Opt := all.find? (·.letter? == some c)

/-- The variable of the environment that stands for an absent option. -/
def envName? : Opt → Option String
  | .workers => some "FANOUT_WORKERS"
  | .chunkSize => some "FANOUT_CHUNK_SIZE_MB"
  | .retries => some "FANOUT_RETRIES"
  | .storeRoot => some "FANOUT_STORE_ROOT"
  | _ => none

end Opt

/-! ## Shapes of arguments -/

/-- What an argument looks like. -/
inductive Shape where
  /-- Two dashes alone. -/
  | dashes
  /-- A long option, and what follows `=`. -/
  | long (o : Opt) (value : Option String)
  /-- A cluster of short options. -/
  | cluster (letters : List Char)
  /-- Anything else. -/
  | word
  deriving DecidableEq, Repr

/-- The characters before the first `=`, and those after it. -/
def splitEquals (cs : List Char) : List Char × Option (List Char) :=
  match cs.span (· ≠ '=') with
  | (name, _ :: value) => (name, some value)
  | (name, []) => (name, none)

/-- The shape of an argument. -/
def shapeOf (arg : String) : Shape :=
  match arg.toList with
  | ['-', '-'] => .dashes
  | '-' :: '-' :: cs =>
    let (name, value) := splitEquals cs
    match Opt.ofLong? (String.ofList name) with
    | some o => .long o (value.map String.ofList)
    | none => .word
  | '-' :: c :: cs =>
    if (c :: cs).all fun c => (Opt.ofLetter? c).isSome then .cluster (c :: cs) else .word
  | _ => .word

/-! ## Values -/

/-- Why the program does not run. -/
inductive Stop where
  /-- The help was asked for. -/
  | help
  /-- The version was asked for. -/
  | version
  /-- An option has no value, or an empty one that it does not take. -/
  | noValue
  /-- A value is not of the kind that its option takes. -/
  | badValue
  /-- An option that takes no value has one. -/
  | strayValue
  /-- Two arguments exclude each other, such as two of one option. -/
  | conflict
  /-- An argument is missing. -/
  | missing
  deriving DecidableEq, Repr

/-- The exit code for it. -/
def Stop.exitCode : Stop → Nat
  | .help => 0
  | .version => 0
  | _ => 2

/-- A number in decimal digits. -/
def digits? (cs : List Char) : Option Nat :=
  if cs.isEmpty || !cs.all Char.isDigit then none
  else some (cs.foldl (fun n c => 10 * n + (c.toNat - '0'.toNat)) 0)

/-- A number that a word of `bits` bits holds, in digits after an optional plus
sign. -/
def natural? (bits : Nat) (s : String) : Option Nat :=
  let n? := match s.toList with
    | '+' :: cs => digits? cs
    | cs => digits? cs
  n?.filter (· < Nat.pow 2 bits)

/-- A number of retries.  Unlike the other numbers a zero may have a minus sign. -/
def retries? (s : String) : Option Nat :=
  match s.toList with
  | '-' :: cs => (digits? cs).filter (· = 0)
  | _ => natural? 32 s

/-- The options that were given, with their values. -/
structure Given where
  workers : Option Nat := none
  chunkSize : Option Nat := none
  retries : Option Nat := none
  file : Option String := none
  storeRoot : Option String := none
  jsonLogs : Bool := false
  deriving DecidableEq, Repr

namespace Given

/-- The option was given. -/
def has (g : Given) : Opt → Bool
  | .workers => g.workers.isSome
  | .chunkSize => g.chunkSize.isSome
  | .retries => g.retries.isSome
  | .file => g.file.isSome
  | .storeRoot => g.storeRoot.isSome
  | .jsonLogs => g.jsonLogs
  | .help => false
  | .version => false

/-- Notes the value of an option. -/
def note (g : Given) (o : Opt) (value : String) : Except Stop Given :=
  match o with
  | .workers =>
    match natural? 64 value with
    | some n => .ok { g with workers := some n }
    | none => .error .badValue
  | .chunkSize =>
    match natural? 64 value with
    | some n => .ok { g with chunkSize := some n }
    | none => .error .badValue
  | .retries =>
    match retries? value with
    | some n => .ok { g with retries := some n }
    | none => .error .badValue
  | .file => .ok { g with file := some value }
  | .storeRoot =>
    if value = "" then .error .noValue else .ok { g with storeRoot := some value }
  | _ => .error .strayValue

/-- Takes an option with its value.  None is taken twice. -/
def take (g : Given) (o : Opt) (value : String) : Except Stop Given :=
  if g.has o then .error .conflict else g.note o value

/-- Takes an option that has no value. -/
def takeFlag (g : Given) (o : Opt) : Except Stop Given :=
  match o with
  | .help => .error .help
  | .version => .error .version
  | _ => if g.has o then .error .conflict else .ok { g with jsonLogs := true }

end Given

/-! ## Reading -/

/-- Takes a cluster of short options.  The last one may still wait for its value. -/
def takeCluster (g : Given) : List Char → Except Stop (Given × Option Opt)
  | [] => .ok (g, none)
  | c :: cs =>
    match Opt.ofLetter? c with
    | none => .error .badValue
    | some o =>
      if o.takesValue then
        if cs.isEmpty then .ok (g, some o)
        else (g.take o (String.ofList cs)).map fun g => (g, none)
      else do
        let g ← g.takeFlag o
        takeCluster g cs

/-- Takes a long option.  It may still wait for its value. -/
def takeLong (g : Given) (o : Opt) (value : Option String) : Except Stop (Given × Option Opt) :=
  match o.takesValue, value with
  | true, none => .ok (g, some o)
  | true, some v => (g.take o v).map fun g => (g, none)
  | false, none => (g.takeFlag o).map fun g => (g, none)
  | false, some _ => .error .strayValue

/-- An option that takes no value has one. -/
def Shape.isStray : Shape → Bool
  | .long o (some _) => !o.takesValue
  | _ => false

/-- The next argument is an option that takes no value and has one. -/
def strayNext : List String → Bool
  | [] => false
  | arg :: _ => (shapeOf arg).isStray

/-- Reads arguments.  The option in `waiting` takes the next one, unless that is
an option itself.  Its value is judged only after the shape of the argument that
follows.  Answers the options and the words of the command. -/
def readArgs (g : Given) (waiting : Option Opt) :
    List String → Except Stop (Given × List String)
  | [] => if waiting.isSome then .error .noValue else .ok (g, [])
  | arg :: rest =>
    match waiting, shapeOf arg with
    | some o, .word =>
      if strayNext rest then .error .strayValue
      else do
        let g ← g.take o arg
        readArgs g none rest
    | some _, shape => .error (if shape.isStray then .strayValue else .noValue)
    | none, .dashes => .ok (g, rest)
    | none, .long o value => do
      let (g, waiting) ← takeLong g o value
      readArgs g waiting rest
    | none, .cluster letters => do
      let (g, waiting) ← takeCluster g letters
      readArgs g waiting rest
    | none, .word => .ok (g, arg :: rest)

/-- Takes the value of an absent option from the environment. -/
def takeVariable (env : String → Option String) (g : Given) (o : Opt) : Except Stop Given :=
  if g.has o then .ok g
  else match o.envName?.bind env with
    | some value => g.note o value
    | none => .ok g

/-! ## Options of a run -/

/-- Where command lines come from. -/
inductive Input where
  /-- The standard input. -/
  | standard
  /-- A file. -/
  | file (path : String)
  /-- One line, from the arguments. -/
  | line (text : String)
  deriving DecidableEq, Repr

/-- The options of a run. -/
structure Options where
  /-- The number of workers. -/
  workers : Nat
  /-- The mebibytes of one part of an upload. -/
  chunkSizeMb : Nat
  /-- The most retries of a throttled command. -/
  retries : Nat
  /-- Where command lines come from. -/
  input : Input
  /-- The root of the store. -/
  storeRoot : String
  /-- Log lines are JSON. -/
  jsonLogs : Bool
  deriving DecidableEq, Repr

namespace Options

/-- The mebibytes of one part of an upload, unless they are given. -/
def standardChunkSizeMb : Nat := 50

/-- The greatest chunk size, which stands for every greater one. -/
def greatestChunkSize : Nat := Nat.pow 2 64 - 1

/-- The settings of the pool. -/
def settings (o : Options) : Settings :=
  { workers := o.workers
    chunkSize := min (o.chunkSizeMb * (1024 * 1024)) greatestChunkSize
    maxRetries := o.retries }

/-- The input that a file argument names. -/
def inputOfFile (path : String) : Input := if path = "-" then .standard else .file path

/-- The options of a run, from what was given and the words of the command. -/
def ofGiven (g : Given) (words : List String) : Except Stop Options :=
  if g.file.isSome && !words.isEmpty then .error .conflict
  else
    match g.storeRoot, g.file, words with
    | none, _, _ => .error .missing
    | some _, none, [] => .error .missing
    | some root, file?, words =>
      let defaults : Settings := {}
      .ok
        { workers := g.workers.getD defaults.workers
          chunkSizeMb := g.chunkSize.getD standardChunkSizeMb
          retries := g.retries.getD defaults.maxRetries
          input := match file? with
            | some path => inputOfFile path
            | none => .line (" ".intercalate words)
          storeRoot := root
          jsonLogs := g.jsonLogs }

/-- Reads the arguments of the program, in an environment. -/
def parse (env : String → Option String) (args : List String) : Except Stop Options := do
  let (given, words) ← readArgs {} none args
  let given ← Opt.all.foldlM (takeVariable env) given
  ofGiven given words

end Options

end CommandPool.Cli
