import MessageIntake.Toml.Scalar

/-!
# TOML documents

A document is a sequence of lines, each blank, a header, or a key with
its value; a comment may end any of them. A key belongs to the table
that the last header opened. Inside brackets and braces a line may end
between any two parts, save within a dotted key.
-/

namespace MessageIntake.Toml

open Text (Reader)

/-- Takes a comment, if one follows. -/
def comment : Reader Unit := do
  if ← Reader.accept "#" then
    let _ ← Reader.takeWhile isPlain

/-- Takes blanks, line ends and comments. -/
def filler : Reader Unit :=
  Reader.iterate (fun (_ : Unit) => do
    blanks
    comment
    if ← lineEnd then pure (.inl ()) else pure (.inr ())) ()

/-- The items of an array after its bracket. -/
def arrayRest (item : Reader Toml) : Reader Toml :=
  Reader.iterate (fun (read : List Toml) => do
    filler
    if ← Reader.accept "]" then pure (.inr (.arr read.reverse))
    else
      let value ← item
      filler
      let read := value :: read
      if ← Reader.accept "," then pure (.inl read)
      else
        Reader.char ']'
        pure (.inr (.arr read.reverse))) []

/-- A key, its value, and what `skip` takes between and after them. -/
def keyValue (skip : Reader Unit) (item : Reader Toml) : Reader (List String × Toml) := do
  let path ← key
  skip
  Reader.char '='
  skip
  let value ← item
  skip
  pure (path, value)

/-- Members with a further key, unless it is defined. -/
def defined (path : List String) (value : Toml) (members : Members) : Reader Members :=
  match define path value members with
  | some members => pure members
  | none => Reader.fail

/-- The members of a table after its brace. -/
def bracesRest (item : Reader Toml) : Reader Toml :=
  Reader.iterate (fun (read : Members) => do
    filler
    if ← Reader.accept "\x7d" then pure (.inr (.table .braces read))
    else
      let (path, value) ← keyValue filler item
      let read ← defined path value read
      if ← Reader.accept "," then pure (.inl read)
      else
        Reader.char '\x7d'
        pure (.inr (.table .braces read))) []

/-- A value whose arrays and tables hold `item`; there are none where
nothing may be held. -/
def valueOf (item : Option (Reader Toml)) : Reader Toml := do
  match ← Reader.peek with
  | some '"' | some '\'' => .str <$> text
  | some '[' =>
    let _ ← Reader.next
    match item with
    | some item => arrayRest item
    | none => Reader.fail
  | some '\x7b' =>
    let _ ← Reader.next
    match item with
    | some item => bracesRest item
    | none => Reader.fail
  | _ => word

/-- A value that nests at most `depth` deep. -/
def value : (depth : Nat) → Reader Toml
  | 0 => valueOf none
  | depth + 1 => valueOf (some (value depth))

/-- A document as far as it is read: all its members, and the path of the
table that the last header opened. -/
structure Draft where
  members : Members := []
  current : List String := []

/-- Goes on with changed members. -/
def Draft.change (d : Draft) (members : Option Members) : Reader Draft :=
  match members with
  | some members => pure { d with members }
  | none => Reader.fail

/-- A header after its first bracket. -/
def headerRest (d : Draft) : Reader Draft := do
  if ← Reader.accept "[" then
    let path ← key
    Reader.literal "]]"
    let d ← d.change (openElement path d.members)
    pure { d with current := path }
  else
    let path ← key
    Reader.char ']'
    let d ← d.change (openTable path d.members)
    pure { d with current := path }

/-- A line without its end. -/
def line (depth : Nat) (d : Draft) : Reader Draft := do
  blanks
  match ← Reader.peek with
  | none | some '\n' | some '\r' | some '#' => pure d
  | some '[' =>
    let _ ← Reader.next
    headerRest d
  | _ =>
    let (path, given) ← keyValue blanks (value depth)
    d.change (within (define path given) d.current d.members)

/-- A document whose values nest at most `depth` deep; a byte order mark
may stand before it. -/
def document (depth : Nat) : Reader Members := do
  let _ ← Reader.accept "\ufeff"
  Reader.iterate (fun (d : Draft) => do
    let d ← line depth d
    blanks
    comment
    if ← Reader.atEnd then pure (.inr d.members)
    else if ← lineEnd then pure (.inl d)
    else Reader.fail) {}

/-- How deep arrays and tables nest in a value. -/
def depthLimit : Nat := 80

/-- The members of the table that a document is. -/
def parse? (s : String) : Option Members := (document depthLimit).readAll s

end MessageIntake.Toml
