import FlowAudit.Json.Number
/-!
Reading JSON text. The text is cut into tokens, and the tokens run through a machine whose stack
holds the arrays and objects that are still open. This gives the text as a tree, of which only the
parts that matter need to have values.
-/
namespace FlowAudit.Json

/-- The tokens of the text. A scalar of correct form may be without a value: a number beyond the
range, or a string with half of a surrogate pair. -/
inductive Token
  | openArray
  | closeArray
  | openObject
  | closeObject
  | colon
  | comma
  | scalar (value : Option Json)
  | string (value : Option String)

/-- The value of four hexadecimal digits. -/
def hex4? (a b c d : Char) : Option Nat := do
  let a ← Decimal.digitValue? 16 a
  let b ← Decimal.digitValue? 16 b
  let c ← Decimal.digitValue? 16 c
  let d ← Decimal.digitValue? 16 d
  return ((a * 16 + b) * 16 + c) * 16 + d

/-- The character of a one-letter escape. -/
def shortEscape? (c : Char) : Option Char :=
  if c = '"' ∨ c = '\\' ∨ c = '/' then some c
  else if c = 'b' then some '\x08'
  else if c = 'f' then some '\x0c'
  else if c = 'n' then some '\n'
  else if c = 'r' then some '\r'
  else if c = 't' then some '\t'
  else none

/-- The character of a code point outside the surrogate range. -/
def charOf? (n : Nat) : Option Char :=
  if h : n.isValidChar then some (Char.ofNatAux n h) else none

/-- Joins the halves of a surrogate pair. -/
def joinSurrogates (high low : Nat) : Nat :=
  0x10000 + (high - 0xD800) * 0x400 + (low - 0xDC00)

/-- Splits the text of a string from what follows its closing quote. Escapes stay as they are, and
controls must be escaped. -/
def splitString? (done : List Char) : List Char → Option (List Char × List Char)
  | [] => none
  | '"' :: rest => some (done.reverse, rest)
  | '\\' :: 'u' :: a :: b :: c :: d :: rest =>
    if (hex4? a b c d).isSome then splitString? (d :: c :: b :: a :: 'u' :: '\\' :: done) rest
    else none
  | '\\' :: c :: rest =>
    if (shortEscape? c).isSome then splitString? (c :: '\\' :: done) rest else none
  | c :: rest => if c.toNat < 0x20 ∨ c = '\\' then none else splitString? (c :: done) rest

/-- Resolves the escapes in the text of a string. Surrogates must come in pairs. -/
def unescape? (done : List Char) : List Char → Option String
  | [] => some (String.ofList done.reverse)
  | '\\' :: 'u' :: a :: b :: c :: d :: rest =>
    match hex4? a b c d with
    | none => none
    | some n =>
      if 0xD800 ≤ n ∧ n ≤ 0xDBFF then
        match rest with
        | '\\' :: 'u' :: a :: b :: c :: d :: rest =>
          match hex4? a b c d with
          | none => none
          | some low =>
            if 0xDC00 ≤ low ∧ low ≤ 0xDFFF then
              match charOf? (joinSurrogates n low) with
              | some char => unescape? (char :: done) rest
              | none => none
            else none
        | _ => none
      else match charOf? n with
        | some char => unescape? (char :: done) rest
        | none => none
  | '\\' :: c :: rest =>
    match shortEscape? c with
    | some char => unescape? (char :: done) rest
    | none => none
  | c :: rest => unescape? (c :: done) rest

/-- Whether a character only separates tokens. -/
def isSpace (c : Char) : Bool :=
  c == ' ' || c == '\t' || c == '\n' || c == '\r'

/-- Reads one token at the start of a text that does not begin with a space. -/
def readToken? : List Char → Option (Token × List Char)
  | '[' :: rest => some (.openArray, rest)
  | ']' :: rest => some (.closeArray, rest)
  | '\x7b' :: rest => some (.openObject, rest)
  | '\x7d' :: rest => some (.closeObject, rest)
  | ':' :: rest => some (.colon, rest)
  | ',' :: rest => some (.comma, rest)
  | '"' :: rest => (splitString? [] rest).map fun (s, rest) => (.string (unescape? [] s), rest)
  | 'n' :: 'u' :: 'l' :: 'l' :: rest => some (.scalar (some .null), rest)
  | 't' :: 'r' :: 'u' :: 'e' :: rest => some (.scalar (some (.bool true)), rest)
  | 'f' :: 'a' :: 'l' :: 's' :: 'e' :: rest => some (.scalar (some (.bool false)), rest)
  | cs =>
    (JsonNumber.Notation.read? cs).map fun (written, rest) =>
      (.scalar (written.value?.map Json.number), rest)

/-- Cuts a text into tokens. Each token takes at least one character, so the length of the text
bounds their number. -/
def tokensWithin : Nat → List Char → Option (List Token)
  | 0, cs => if cs.all isSpace then some [] else none
  | count + 1, cs =>
    match cs.dropWhile isSpace with
    | [] => some []
    | start => do
      let (token, rest) ← readToken? start
      return token :: (← tokensWithin count rest)

/-- All tokens of a text. -/
def tokens? (cs : List Char) : Option (List Token) :=
  tokensWithin cs.length cs

/-- A text as a tree. Scalars and names may be without a value. -/
inductive Written
  | scalar (value : Option Json)
  | array (items : List Written)
  | object (members : List (Option String × Written))

/-- An array or object that is still open. Items and members stand in reverse order, and an object
knows the name whose value is being read. -/
inductive Frame
  | items (done : List Written)
  | members (done : List (Option String × Written)) (name : Option String)

/-- What may come next. -/
inductive Expecting
  | value
  | itemOrClose
  | name (done : List (Option String × Written))
  | nameOrClose
  | colon (done : List (Option String × Written)) (name : Option String)
  | nothing (complete : Written)

/-- Where the reading of a value stands. -/
structure Progress where
  stack : List Frame
  expecting : Expecting

/-- Takes the first token of a value. -/
def Progress.enter? (p : Progress) (opening : Token) : Option Progress :=
  match opening with
  | .openArray => some ⟨.items [] :: p.stack, .itemOrClose⟩
  | .openObject => some ⟨p.stack, .nameOrClose⟩
  | .scalar value => some ⟨p.stack, .nothing (.scalar value)⟩
  | .string value => some ⟨p.stack, .nothing (.scalar (value.map Json.string))⟩
  | _ => none

/-- Takes one token. -/
def Progress.step? (p : Progress) (t : Token) : Option Progress :=
  match p.expecting, t with
  | .value, t => p.enter? t
  | .itemOrClose, .closeArray =>
    match p.stack with
    | .items done :: stack => some ⟨stack, .nothing (.array done.reverse)⟩
    | _ => none
  | .itemOrClose, t => p.enter? t
  | .nameOrClose, .closeObject => some ⟨p.stack, .nothing (.object [])⟩
  | .nameOrClose, .string s => some ⟨p.stack, .colon [] s⟩
  | .name done, .string s => some ⟨p.stack, .colon done s⟩
  | .colon done name, .colon => some ⟨.members done name :: p.stack, .value⟩
  | .nothing value, .comma =>
    match p.stack with
    | .items done :: stack => some ⟨.items (value :: done) :: stack, .value⟩
    | .members done name :: stack => some ⟨stack, .name ((name, value) :: done)⟩
    | [] => none
  | .nothing value, .closeArray =>
    match p.stack with
    | .items done :: stack => some ⟨stack, .nothing (.array (value :: done).reverse)⟩
    | _ => none
  | .nothing value, .closeObject =>
    match p.stack with
    | .members done name :: stack =>
      some ⟨stack, .nothing (.object ((name, value) :: done).reverse)⟩
    | _ => none
  | _, _ => none

/-- The tree of a text that holds one value and nothing else. -/
def Written.ofText? (text : String) : Option Written := do
  let tokens ← tokens? text.toList
  let final ← tokens.foldlM Progress.step? ⟨[], .value⟩
  match final with
  | ⟨[], .nothing written⟩ => some written
  | _ => none

/-- The parts of a value that matter: all of it, the same parts of all items, or some fields of a
record with parts of their own. -/
inductive Part
  | whole
  | items (each : Part)
  | fields (known : List (String × Part))

namespace Part

/-- Some fields of a record, each as a whole. -/
def record (names : List String) : Part :=
  fields (names.map fun name => (name, whole))

/-- The part that matters of an item of an array. A record may be written as an array. -/
def ofItem (p : Part) (i : Nat) : Part :=
  match p with
  | whole => whole
  | items each => each
  | fields known => (known[i]?.map Prod.snd).getD whole

/-- The part that matters of a member of an object, none if the member is ignored. -/
def ofMember? (p : Part) (name : String) : Option Part :=
  match p with
  | fields known => known.lookup name
  | _ => some whole

end Part

/-- The count of arrays and objects that may be open inside each other. -/
def deepest : Nat :=
  127

/-- The parts that matter of the value that a tree stands for. All of it must have a value and nest
at most to a given depth, but ignored members are left out together with what is wrong in them. -/
def Written.value? : Nat → Part → Written → Option Json
  | _, _, scalar value => value
  | 0, _, _ => none
  | depth + 1, part, array items => do
    let items ← items.zipIdx.mapM fun (item, i) => item.value? depth (part.ofItem i)
    return .array items
  | depth + 1, part, object members => do
    let members ← members.filterMapM fun (name, member) => do
      let name ← name
      match part.ofMember? name with
      | some part => return some (name, ← member.value? depth part)
      | none => return none
    return .object members

/-- Reads the parts that matter of a text that holds one value and nothing else. -/
def readPart? (part : Part) (text : String) : Option Json := do
  (← Written.ofText? text).value? deepest part

/-- Reads a text that holds one value and nothing else. -/
def read? (text : String) : Option Json :=
  readPart? .whole text

end FlowAudit.Json
