import ContractInterface.Table
import ContractInterface.Text.Blank

/-!
# Environment files

An environment file gives values to variables, one binding per line: a name, an equals sign and a
value, possibly after `export`.  A value may stand between single or double quotes, and then may
extend over several lines; otherwise it ends at the line end or before a comment.  A reference
`$\{NAME\}` or `$\{NAME:-default\}` in a value is replaced.  A statement that is no binding is
passed over with a notice.
-/

namespace ContractInterface.EnvFile

/-- Whether a character ends a line. -/
def isNewline (c : Char) : Bool :=
  c == '\n' || c == '\r'

/-- Whether a character is a blank inside a line. -/
def isInlineBlank (c : Char) : Bool :=
  isBlank c && !isNewline c

/-- Drops the blanks inside a line in front. -/
def skipInline (t : Text) : Text :=
  t.dropWhile isInlineBlank

/-- Drops `export` and the blanks after it. -/
def skipExport (t : Text) : Text :=
  match Text.dropPrefix? "export".toList t with
  | some (c :: rest) => if isInlineBlank c then skipInline rest else t
  | _ => t

/-! ### Names and values -/

/-- The name at the front of a line; a comment has none.  Fails with what is left to skip. -/
def takeKey (t : Text) : Except Text (Option Text × Text) :=
  match t with
  | '#' :: _ => .ok (none, t)
  | '\'' :: rest =>
    let key := rest.takeWhile (· != '\'')
    match rest.dropWhile (· != '\'') with
    | _ :: after => if key.isEmpty then .error t else .ok (some key, after)
    | [] => .error t
  | _ =>
    let inKey := fun c => !(c == '=' || c == '#' || isBlank c)
    let key := t.takeWhile inKey
    if key.isEmpty then .error t else .ok (some key, t.dropWhile inKey)

/-- The text up to the closing quote and what follows the quote.  The character after a backslash
does not close. -/
def takeQuoted? (quote : Char) : Text → Option (Text × Text)
  | [] => none
  | ['\\'] => none
  | '\\' :: c :: t => (takeQuoted? quote t).map fun (value, rest) => ('\\' :: c :: value, rest)
  | c :: t =>
    if c = quote then some ([], t)
    else (takeQuoted? quote t).map fun (value, rest) => (c :: value, rest)

/-- The escapes between single quotes. -/
def singleEscapes : List (Char × Char) :=
  [('\\', '\\'), ('\'', '\'')]

/-- The escapes between double quotes. -/
def doubleEscapes : List (Char × Char) :=
  singleEscapes ++
    [('"', '"'), ('a', Char.ofNat 7), ('b', Char.ofNat 8), ('f', Char.ofNat 12), ('n', '\n'),
      ('r', '\r'), ('t', '\t'), ('v', Char.ofNat 11)]

/-- Replaces escapes. -/
def unescape (escapes : List (Char × Char)) : Text → Text
  | [] => []
  | ['\\'] => ['\\']
  | '\\' :: c :: t =>
    match escapes.lookup c with
    | some d => d :: unescape escapes t
    | none => '\\' :: unescape escapes (c :: t)
  | c :: t => c :: unescape escapes t

/-- Drops a comment, which blanks must precede, from the end of a line. -/
def dropComment : Text → Text
  | [] => []
  | c :: t =>
    if isBlank c && Text.hasPrefix ['#'] (Text.trimLeft t) then [] else c :: dropComment t

/-- The value at the front of a text, after an equals sign.  Fails with what is left to skip. -/
def takeValue (t : Text) : Except Text (Text × Text) :=
  match skipInline t with
  | '\'' :: rest =>
    match takeQuoted? '\'' rest with
    | some (value, after) => .ok (unescape singleEscapes value, after)
    | none => .error ('\'' :: rest)
  | '"' :: rest =>
    match takeQuoted? '"' rest with
    | some (value, after) => .ok (unescape doubleEscapes value, after)
    | none => .error ('"' :: rest)
  | _ =>
    let line := t.takeWhile fun c => !isNewline c
    .ok (Text.trim (dropComment line), t.dropWhile fun c => !isNewline c)

/-! ### Statements -/

/-- A statement of an environment file. -/
inductive Statement where
  /-- A name with its value; a name may also be bound to nothing. -/
  | binding (name : Text) (value : Option Text)
  | comment
  /-- A text that is no statement, from a line on. -/
  | unreadable (line : Nat)
  deriving DecidableEq, Repr

/-- What follows the line end at the front of a text, blanks aside. -/
def afterLineEnd? (t : Text) : Option Text :=
  match skipInline t with
  | [] => some []
  | '\r' :: '\n' :: rest => some rest
  | c :: rest => if isNewline c then some rest else none

/-- What follows the rest of a line. -/
def dropLine (t : Text) : Text :=
  match t.dropWhile fun c => !isNewline c with
  | [] => []
  | _ :: rest => rest

/-- Drops a comment at the front of a text, blanks aside. -/
def skipComment (t : Text) : Text :=
  match skipInline t with
  | '#' :: rest => rest.dropWhile fun c => !isNewline c
  | _ => t

/-- The statement at the front of a text, and what follows its line.  Fails with what is left to
skip. -/
def takeStatement (t : Text) : Except Text (Statement × Text) := do
  let (key, t) ← takeKey (skipExport t)
  let t := skipInline t
  let (value, t) ←
    match t with
    | '=' :: rest => do
      let (value, rest) ← takeValue rest
      pure (some value, rest)
    | t => pure (none, t)
  let t := skipComment t
  match key, afterLineEnd? t with
  | some key, some rest => return (.binding key value, rest)
  | none, some rest => return (.comment, rest)
  | _, none => throw t

/-- The statements of a text that starts at a line.  Every statement takes a character off the
text, so its length is enough fuel. -/
def statementsFrom : Nat → Nat → Text → List Statement
  | 0, _, _ => []
  | fuel + 1, line, t =>
    let next (rest : Text) : Nat := line + (t.count '\n' - rest.count '\n')
    if (Text.trimLeft t).isEmpty then []
    else
      match takeStatement (Text.trimLeft t) with
      | .ok (statement, rest) => statement :: statementsFrom fuel (next rest) rest
      | .error left =>
        .unreadable line :: statementsFrom fuel (next (dropLine left)) (dropLine left)

/-- A text without the mark of its byte order in front. -/
def dropByteOrderMark (t : Text) : Text :=
  (Text.dropPrefix? [Char.ofNat 0xfeff] t).getD t

/-- The statements of an environment file. -/
def statements (t : Text) : List Statement :=
  statementsFrom (t.length + 1) 1 (dropByteOrderMark t)

/-- The bindings of an environment file. -/
def bindings (t : Text) : List (Text × Option Text) :=
  (statements t).filterMap fun
    | .binding name value => some (name, value)
    | _ => none

/-- The notices about what is no statement of an environment file. -/
def notices (t : Text) : List String :=
  (statements t).filterMap fun
    | .unreadable line =>
      some ("python-dotenv could not parse statement starting at line " ++ toString line)
    | _ => none

/-! ### References -/

/-- A reference at the front of a text: the name, the default and what follows. -/
def takeReference? (t : Text) : Option (Text × Text × Text) := do
  let t ← Text.dropPrefix? "$\x7b".toList t
  let name := t.takeWhile fun c => !(c == '}' || c == ':')
  match t.dropWhile fun c => !(c == '}' || c == ':') with
  | '}' :: rest => some (name, [], rest)
  | ':' :: '-' :: rest =>
    match rest.dropWhile (· != '}') with
    | _ :: after => some (name, rest.takeWhile (· != '}'), after)
    | [] => none
  | _ => none

/-- Replaces the references in a value, after passing over `skip` characters. -/
def expandFrom (known : String → Option String) : Nat → Text → Text
  | _, [] => []
  | skip + 1, _ :: t => expandFrom known skip t
  | 0, c :: t =>
    match takeReference? (c :: t) with
    | some (name, default, rest) =>
      (((known (String.ofList name)).map String.toList).getD default) ++
        expandFrom known (t.length - rest.length) t
    | none => c :: expandFrom known 0 t

/-- The values of an environment file.  A reference means the environment first and the values
before it in the file next; a name bound to nothing is empty in a reference. -/
def values (environment : Table String) (t : Text) : Table (Option String) :=
  (bindings t).foldl
    (fun table (name, value) =>
      let known (name : String) : Option String :=
        match environment.get? name with
        | some value => some value
        | none => (table.get? name).map fun value => value.getD ""
      let expanded := value.map fun value => String.ofList (expandFrom known 0 value)
      table.insert (String.ofList name) expanded)
    []

/-! ### Loading -/

/-- Why a variable cannot be set. -/
inductive Error where
  | nullByte
  | badName
  deriving DecidableEq, Repr

/-- The wording of an error. -/
def Error.message : Error → String
  | .nullByte => "embedded null byte"
  | .badName => "illegal environment variable name"

/-- Sets a variable. -/
def setVariable (environment : Table String) (name value : String) :
    Except Error (Table String) :=
  if (name ++ value).toList.contains '\x00' then .error .nullByte
  else if name.toList.contains '=' then .error .badName
  else .ok (environment.insert name value)

/-- The environment with the values of a file added for the names that it does not have. -/
def load (environment : Table String) (t : Text) : Except Error (Table String) :=
  (values environment t).foldlM
    (fun env (name, value) =>
      match value with
      | some value => if environment.contains name then .ok env else setVariable env name value
      | none => .ok env)
    environment

/-- The variable that turns the loading of environment files off. -/
def switchName : String := "PYTHON_DOTENV_DISABLED"

/-- The letter that a character is when case does not matter; the long s is an s. -/
def foldCase (c : Char) : Char :=
  if c.toNat = 0x17f then 's' else c.toLower

/-- Whether environment files are not to be loaded. -/
def isDisabled (environment : Table String) : Bool :=
  (environment.get? switchName).any fun value =>
    ["1", "true", "t", "yes", "y"].contains (String.ofList (value.toList.map foldCase))

/-- The names that the references in a value mention. -/
def referencesIn : Text → List String
  | [] => []
  | c :: t =>
    ((takeReference? (c :: t)).map fun (name, _, _) => String.ofList name).toList ++
      referencesIn t

/-- The names that an environment file binds or refers to. -/
def mentioned (t : Text) : List String :=
  (bindings t).flatMap fun (name, value) => String.ofList name :: referencesIn (value.getD [])

end ContractInterface.EnvFile
