import TurtleLogo.Drawing.Canvas

/-! # Command-line arguments

    Arguments are sorted first: a switch, perhaps with a text joined to it,
    something that looks like a switch and is none, or plain text.  A long
    switch may be cut short as long as one switch is meant; single-letter
    switches may stand together behind one dash, and the value of the last one
    may follow directly.  After `--` all is plain.  Then `consume` goes through
    them in order and fills in the options. -/

namespace TurtleLogo.CommandLine

/-- The switches of the program. -/
inductive Switch where
  | help
  | speed
  | size
  | mode
  | headless
  | save
  | saveProject
  | verbose
deriving DecidableEq

namespace Switch

/-- Every spelling of a switch. -/
def table : List (Text × Switch) := Text.keyed [
  ("-h", .help), ("--help", .help), ("-s", .speed), ("--speed", .speed), ("--size", .size),
  ("-m", .mode), ("--mode", .mode), ("--headless", .headless), ("--save", .save),
  ("--save-project", .saveProject), ("-v", .verbose), ("--verbose", .verbose)]

/-- The switch of a spelling. -/
def ofSpelling? (spelling : Text) : Option Switch :=
  table.lookup spelling

/-- The switch of a letter. -/
def ofLetter? (c : CodePoint) : Option Switch :=
  ofSpelling? [.char '-', c]

/-- A switch with all its spellings, as messages name it. -/
def label (s : Switch) : Text :=
  Text.joinWith "/" ((table.filter (·.2 = s)).map (·.1))

/-- Whether a switch needs a value. -/
def takesValue : Switch → Bool
  | .speed | .size | .mode | .save | .saveProject => true
  | .help | .headless | .verbose => false

end Switch

/-- What can be wrong with the arguments. -/
inductive UsageFault where
  | ambiguous (given : Text) (candidates : List Text)
  | valueMissing (s : Switch)
  | valueIgnored (s : Switch) (value : Text)
  | notWhole (s : Switch) (value : Text)
  | badSize
  | noSuchMode (value : Text)
  | programMissing
  | unrecognized (arguments : List Text)

/-- The edge modes as messages list them. -/
def modeNames : List Text := EdgeMode.all.map fun m => Text.ofString m.name

/-- A complaint about a switch. -/
def complaint (s : Switch) (words : Text) : Text :=
  "argument " ++ s.label ++ ": " ++ words

/-- The words for what is wrong with the arguments. -/
def UsageFault.message : UsageFault → Text
  | .ambiguous given candidates =>
      "ambiguous option: " ++ given ++ " could match " ++ Text.joinWith ", " candidates
  | .valueMissing s => complaint s "expected one argument"
  | .valueIgnored s value => complaint s ("ignored explicit argument " ++ Text.quoted value)
  | .notWhole s value => complaint s ("invalid int value: " ++ Text.quoted value)
  | .badSize => complaint .size "size should look like 800x600"
  | .noSuchMode value =>
      complaint .mode ("invalid choice: " ++ Text.quoted value
        ++ " (choose from " ++ Text.joinWith ", " (modeNames.map Text.quoted) ++ ")")
  | .programMissing => "the following arguments are required: program"
  | .unrecognized arguments => "unrecognized arguments: " ++ Text.joinWith " " arguments

/-! ## Sorting -/

/-- An argument by its sort. -/
inductive Argument where
  | plain (text : Text)
  /-- The two dashes after which all is plain. -/
  | divider
  /-- A switch by its letter, with the text joined to it. -/
  | short (s : Switch) (joined : Option Text)
  /-- A switch by its name, with the text after the equals sign. -/
  | long (s : Switch) (joined : Option Text)
  | unknown (text : Text)

/-- The two sides of the first equals sign. -/
def splitEquals : Text → Text × Option Text
  | [] => ([], none)
  | .char '=' :: cs => ([], some cs)
  | c :: cs =>
      let r := splitEquals cs
      (c :: r.1, r.2)

/-- The switch of an exact spelling, or else all that the spelling begins. -/
def matching (name : Text) : List (Text × Switch) :=
  match Switch.table.filter (·.1 = name) with
  | [] => Switch.table.filter (name.isPrefixOf ·.1)
  | found => found

/-- A text without the line end that it may have. -/
def dropLineEnd (t : Text) : Text :=
  if t.getLast? = some (.char '\n') then t.dropLast else t

/-- Whether a text is a negative number, which is never a switch; the end of a
    line may follow it. -/
def isNegative (t : Text) : Bool :=
  match dropLineEnd t with
  | .char '-' :: cs =>
      match cs.dropWhile Text.isDigit with
      | [] => !cs.isEmpty
      | .char '.' :: fraction => !fraction.isEmpty && fraction.all Text.isDigit
      | _ => false
  | _ => false

/-- The sort of an argument that starts with a dash and is no switch. -/
def classifyStray (text : Text) : Argument :=
  if isNegative text || text.contains (.char ' ') then .plain text else .unknown text

/-- The sort of an argument with two dashes: the switch whose spelling it is
    or begins, up to the equals sign. -/
def classifyLong (text : Text) : Except UsageFault Argument :=
  let (name, joined) := splitEquals text
  match matching name with
  | [] => .ok (classifyStray text)
  | [(_, s)] => .ok (.long s joined)
  | found => .error (.ambiguous text (found.map (·.1)))

/-- The sort of an argument with one dash: an equals sign directly after a
    single letter is no part of what is joined to it. -/
def classifyShort (text : Text) : Argument :=
  let (name, joined) := splitEquals text
  match Switch.ofSpelling? name, text with
  | some s, _ => .short s joined
  | none, _ :: c :: cs =>
      match Switch.ofLetter? c with
      | some s => .short s (some cs)
      | none => classifyStray text
  | none, _ => classifyStray text

/-- The sort of an argument. -/
def classify (text : Text) : Except UsageFault Argument :=
  match text with
  | .char '-' :: .char '-' :: _ => classifyLong text
  | .char '-' :: _ :: _ => .ok (classifyShort text)
  | _ => .ok (.plain text)

/-- The sorts of all arguments. -/
def classifyAll : List Text → Except UsageFault (List Argument)
  | [] => .ok []
  | text :: rest =>
      if text = "--" then .ok (.divider :: rest.map .plain)
      else do
        let a ← classify text
        let more ← classifyAll rest
        .ok (a :: more)

/-! ## Options -/

/-- What the arguments ask for.  A switch to which two dashes are joined has
    no value any more, not even the usual one. -/
structure Options where
  /-- The file with the program, once it is known. -/
  program : Option Text
  speed : Option Int
  size : Option (Int × Int)
  mode : Option EdgeMode
  headless : Bool
  save : Option Text
  saveProject : Option Text
  verbose : Nat
  /-- The arguments that mean nothing. -/
  extras : List Text

/-- The size of a surface that nobody has sized. -/
def usualSize : Int × Int := (800, 600)

/-- The options without any arguments. -/
def Options.usual : Options :=
  ⟨none, some 0, some usualSize, some .wrap, false, none, none, 0, []⟩

/-- Why there is nothing to run: the user asked for help, or something is
    wrong. -/
inductive Ending where
  | help
  | fault (f : UsageFault)

/-- A size like `800x600`, with both sides at least one. -/
def readSize? (text : Text) : Option (Int × Int) :=
  match Text.split 'x' (Text.lower text) with
  | [w, h] => do
      let width ← Number.readInt? w
      let height ← Number.readInt? h
      if width < 1 || height < 1 then none else some (width, height)
  | _ => none

/-- The options after a switch without a value. -/
def Options.flag (o : Options) : Switch → Except Ending Options
  | .help => .error .help
  | .headless => .ok { o with headless := true }
  | .verbose => .ok { o with verbose := o.verbose + 1 }
  | s => .error (.fault (.valueMissing s))

/-- The options after a switch with its value. -/
def Options.give (o : Options) (s : Switch) (value : Text) : Except Ending Options :=
  match s with
  | .speed =>
      match Number.readInt? value with
      | some n => .ok { o with speed := some n }
      | none => .error (.fault (.notWhole s value))
  | .size =>
      match readSize? value with
      | some size => .ok { o with size := some size }
      | none => .error (.fault .badSize)
  | .mode =>
      match EdgeMode.ofName? value with
      | some m => .ok { o with mode := some m }
      | none => .error (.fault (.noSuchMode value))
  | .save => .ok { o with save := some value }
  | .saveProject => .ok { o with saveProject := some value }
  | .help | .headless | .verbose => .error (.fault (.valueIgnored s value))

/-- The options after a switch whose value is taken away. -/
def Options.withdraw (o : Options) : Switch → Options
  | .speed => { o with speed := none }
  | .size => { o with size := none }
  | .mode => { o with mode := none }
  | .save => { o with save := none }
  | .saveProject => { o with saveProject := none }
  | .help | .headless | .verbose => o

/-- The options after a switch with a text joined to it as its value. -/
def Options.join (o : Options) (s : Switch) (value : Text) : Except Ending Options :=
  if value = "--" then .ok (o.withdraw s) else o.give s value

/-- What one argument with switches asks for. -/
structure Cluster where
  /-- The switches before the last one, none of which takes a value. -/
  flags : List Switch
  last : Switch
  /-- The value that is joined to the last switch. -/
  value : Option Text

/-- The switches of a switch and the letters joined to it: a value takes all
    that is left of them. -/
def letters (s : Switch) : Text → Except UsageFault Cluster
  | [] => .ok ⟨[], s, none⟩
  | c :: cs =>
      if s.takesValue then .ok ⟨[], s, some (c :: cs)⟩
      else
        match Switch.ofLetter? c with
        | none => .error (.valueIgnored s (c :: cs))
        | some t => do
            let r ← letters t cs
            .ok { r with flags := s :: r.flags }

/-- What a switch by its name asks for. -/
def longCluster (s : Switch) (joined : Option Text) : Except UsageFault Cluster :=
  match joined with
  | some v => if s.takesValue then .ok ⟨[], s, some v⟩ else .error (.valueIgnored s v)
  | none => .ok ⟨[], s, none⟩

/-- What a switch by its letter asks for. -/
def shortCluster (s : Switch) (joined : Option Text) : Except UsageFault Cluster :=
  match joined with
  | some (c :: cs) => letters s (c :: cs)
  | joined => longCluster s joined

/-- The options after several switches without values. -/
def Options.flags (o : Options) : List Switch → Except Ending Options
  | [] => .ok o
  | s :: ss => do
      let o ← o.flag s
      o.flags ss

/-- A fault of the arguments as an ending. -/
def endIn {α : Type} : Except UsageFault α → Except Ending α
  | .ok a => .ok a
  | .error f => .error (.fault f)

/-- The options after a cluster, and whether its last switch has taken the
    next argument as its value. -/
def Options.obey (o : Options) (c : Cluster) (rest : List Argument) :
    Except Ending (Options × Bool) :=
  match c.value with
  | some v => do
      let o ← o.flags c.flags
      let o ← o.join c.last v
      .ok (o, false)
  | none =>
      if c.last.takesValue then
        match rest with
        | .plain v :: _ => do
            let o ← o.flags c.flags
            let o ← o.give c.last v
            .ok (o, true)
        | _ => .error (.fault (.valueMissing c.last))
      else do
        let o ← o.flags (c.flags ++ [c.last])
        .ok (o, false)

/-- Goes through sorted arguments.  The first plain one, perhaps with the
    divider beside it, is the program.  When `skip` is set the first argument
    has been used already. -/
def consume (o : Options) (skip : Bool) : List Argument → Except Ending Options
  | [] => .ok o
  | a :: rest =>
      if skip then consume o false rest
      else
        match a with
        | .short s joined => do
            let c ← endIn (shortCluster s joined)
            let (o, used) ← o.obey c rest
            consume o used rest
        | .long s joined => do
            let c ← endIn (longCluster s joined)
            let (o, used) ← o.obey c rest
            consume o used rest
        | .unknown text => consume { o with extras := o.extras ++ [text] } false rest
        | .plain text =>
            if o.program.isSome then consume { o with extras := o.extras ++ [text] } false rest
            else
              let used :=
                match rest with
                | .divider :: _ => true
                | _ => false
              consume { o with program := some text } used rest
        | .divider =>
            match o.program, rest with
            | none, .plain text :: _ => consume { o with program := some text } true rest
            | _, _ => consume { o with extras := o.extras ++ [("--" : Text)] } false rest

/-- The program to run and the options that the arguments ask for. -/
def parse (arguments : List Text) : Except Ending (Text × Options) := do
  let sorted ← endIn (classifyAll arguments)
  let o ← consume .usual false sorted
  match o.program with
  | none => .error (.fault .programMissing)
  | some program =>
      if o.extras.isEmpty then .ok (program, o)
      else .error (.fault (.unrecognized o.extras))

end TurtleLogo.CommandLine
