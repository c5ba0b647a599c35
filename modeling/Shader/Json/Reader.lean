import Shader.Json.Number
import Shader.Json.Text

/-!
# Reading JSON

A reader takes what is left of a text and answers what it has read and what follows. The first fault
met ends the reading. A fault of syntax lies at the character that breaks it; a fault of a whole
container lies where the container ends, as far as that is in sight.

* `Reader`: readers; `depthLimit`: how many containers may be open at the same time;
* `nextElement`, `endArray`, `nextKey`, `readColon`: the punctuation of containers;
* `behindArray`, `behindObject`: where a fault of a whole container lies;
* `readElements`, `readMembers`: whole containers, given a reader for what they hold;
* `readValue`: any value;
* `refuse`: stop at a value of the wrong kind;
* `readText`, `readChoice`, `readRecord`: a string, one of a few words, an object with known fields;
* `readDocument`: a value that is all there is.
-/

namespace Shader.Json

/-- A reader of a value at the front of a text. -/
abbrev Reader (α : Type) : Type := List Char → Except Stop (α × List Char)

/-- The number of containers that may be open at the same time. -/
def depthLimit : Nat := 127

/-- Whether a character stands between tokens without a meaning. -/
def isBlank (c : Char) : Bool := c = ' ' || c = '\n' || c = '\t' || c = '\r'

/-- The text behind the blanks at its front. -/
def skipBlanks (cs : List Char) : List Char := cs.dropWhile isBlank

/-! ## Scalars -/

/-- Read the rest of a word. -/
def readWord : (word : List Char) → List Char → Except Stop (List Char)
  | [], rest => .ok rest
  | _ :: _, [] => stopBefore (.ended .value) []
  | w :: word, c :: rest =>
    if c = w then readWord word rest else stopOn .expectedIdent (c :: rest)

/-- Read a word that stands for a value, behind its first letter. -/
def readNamed (word : List Char) (v : Value) (cs : List Char) : Except Stop (Value × List Char) :=
  (readWord word cs).map (v, ·)

/-- Read the value at the front, if one begins there that is no container. -/
def readScalar? (cs : List Char) : Option (Except Stop (Value × List Char)) :=
  match cs with
  | [] => none
  | c :: rest =>
    if c = 'n' then some (readNamed ['u', 'l', 'l'] .null rest)
    else if c = 't' then some (readNamed ['r', 'u', 'e'] (.bool true) rest)
    else if c = 'f' then some (readNamed ['a', 'l', 's', 'e'] (.bool false) rest)
    else if c = '-' then some (readNumber true rest)
    else if isDigit c then some (readNumber false cs)
    else if c = '"' then
      some ((readString rest).map fun (s, rest) => (.string s, rest))
    else none

/-- Stop at a value where another kind is wanted. A scalar is read for it, and the fault may lie
there. -/
def refuse {α : Type} (expected : String) (cs : List Char) : Except Stop α :=
  match readScalar? cs with
  | some (.ok (v, rest)) => stopBefore (.wrongKind v.found expected) rest
  | some (.error s) => .error s
  | none =>
    match cs with
    | [] => stopBefore (.ended .value) []
    | c :: _ =>
      if c = '[' then stopBefore (.wrongKind .array expected) cs
      else if c = '\x7b' then stopBefore (.wrongKind .object expected) cs
      else stopOn .expectedValue cs

/-! ## Containers -/

/-- Go to the next element of an array: `true` with the text from the element on, or `false` with
the text behind the array. -/
def nextElement (first : Bool) (cs : List Char) : Except Stop (Bool × List Char) :=
  match skipBlanks cs with
  | [] => stopBefore (.ended .array) []
  | c :: rest =>
    if c = ']' then .ok (false, rest)
    else if first then .ok (true, c :: rest)
    else if c = ',' then
      match skipBlanks rest with
      | [] => stopBefore (.ended .value) []
      | d :: rest =>
        if d = ']' then stopOn .trailingComma (d :: rest) else .ok (true, d :: rest)
    else stopOn .expectedCommaOrBracket (c :: rest)

/-- Leave an array that has all its elements. -/
def endArray (cs : List Char) : Except Stop (List Char) :=
  match skipBlanks cs with
  | [] => stopBefore (.ended .array) []
  | c :: rest =>
    if c = ']' then .ok rest
    else if c = ',' then
      let cs := skipBlanks rest
      stopOn (if cs.head? = some ']' then .trailingComma else .trailingCharacters) cs
    else stopOn .trailingCharacters (c :: rest)

/-- What is left behind an array, if it ends here, or else behind the comma. -/
def behindArray (cs : List Char) : List Char :=
  match skipBlanks cs with
  | [] => []
  | c :: rest => if c = ']' then rest else if c = ',' then skipBlanks rest else c :: rest

/-- Read the next key of an object, or `none` at its end, with the text behind. -/
def nextKey (first : Bool) (cs : List Char) : Except Stop (Option String × List Char) :=
  match skipBlanks cs with
  | [] => stopBefore (.ended .object) []
  | c :: rest =>
    if c = '\x7d' then .ok (none, rest)
    else if first then key (c :: rest)
    else if c = ',' then
      match skipBlanks rest with
      | [] => stopBefore (.ended .value) []
      | d :: rest => if d = '\x7d' then stopOn .trailingComma (d :: rest) else key (d :: rest)
    else stopOn .expectedCommaOrBrace (c :: rest)
where
  /-- Read a key from its opening mark on. -/
  key (cs : List Char) : Except Stop (Option String × List Char) :=
    match cs with
    | '"' :: rest => (readString rest).map fun (s, rest) => (some s, rest)
    | _ => stopOn .keyNotString cs

/-- What is left behind an object, if it ends here. -/
def behindObject (cs : List Char) : List Char :=
  match skipBlanks cs with
  | [] => []
  | c :: rest => if c = '\x7d' then rest else c :: rest

/-- Read the colon behind a key. -/
def readColon (cs : List Char) : Except Stop (List Char) :=
  match skipBlanks cs with
  | [] => stopBefore (.ended .object) []
  | c :: rest => if c = ':' then .ok rest else stopOn .expectedColon (c :: rest)

variable {α : Type}

/-- Read elements of an array and its end. `steps` is as long as the text at least: when it is used
up, so is the text. -/
def elementsFrom (item : Reader α) : (steps : List Char) → (first : Bool) → Reader (List α)
  | [], _, _ => stopBefore (.ended .array) []
  | _ :: steps, first, cs => do
    let (more, cs) ← nextElement first cs
    if more then
      let (v, rest) ← item cs
      let (vs, rest) ← elementsFrom item steps false rest
      return (v :: vs, rest)
    else return ([], cs)

/-- Read the elements of an array, behind its bracket. An element takes at least one character, so
the text itself bounds the steps. -/
def readElements (item : Reader α) : Reader (List α) := fun cs => elementsFrom item cs true cs

/-- Read members of an object and its end; `steps` is as long as the text at least. -/
def membersFrom (member : String → α → Reader α) :
    (steps : List Char) → (first : Bool) → α → Reader α
  | [], _, _, _ => stopBefore (.ended .object) []
  | _ :: steps, first, acc, cs => do
    match ← nextKey first cs with
    | (none, rest) => return (acc, rest)
    | (some key, rest) =>
      let (acc, rest) ← member key acc rest
      membersFrom member steps false acc rest

/-- Read the members of an object, behind its brace. The reader of a member gets the key, what was
read before, and the text behind the key. -/
def readMembers (member : String → α → Reader α) (start : α) : Reader α := fun cs =>
  membersFrom member cs true start cs

/-- Read a value at the front, given what to do behind an opening bracket or brace. -/
def readBy (scalar : Value → α) (array object : Reader α) : Reader α := fun cs =>
  let cs := skipBlanks cs
  match readScalar? cs with
  | some r => r.map fun (v, rest) => (scalar v, rest)
  | none =>
    match cs with
    | [] => stopBefore (.ended .value) []
    | c :: rest =>
      if c = '[' then array rest
      else if c = '\x7b' then object rest
      else stopOn .expectedValue cs

/-- Read any value; at most `room` containers may be open in it at the same time. -/
def readValue : (room : Nat) → Reader Value
  | 0 => readBy id (stopBefore .tooDeep) (stopBefore .tooDeep)
  | room + 1 =>
    readBy id
      (fun rest => do
        let (vs, rest) ← readElements (readValue room) rest
        return (.array vs, rest))
      (fun rest => do
        let (ms, rest) ← readMembers
          (fun key before rest => do
            let rest ← readColon rest
            let (v, rest) ← readValue room rest
            return ((key, v) :: before, rest)) [] rest
        return (.object ms.reverse, rest))

/-! ## Values of a known shape -/

/-- Read a string. -/
def readText (expected : String) : Reader String := fun cs =>
  match skipBlanks cs with
  | [] => stopBefore (.ended .value) []
  | c :: rest => if c = '"' then readString rest else refuse expected (c :: rest)

/-- Read `null`. -/
def readNull (expected : String) : Reader Unit := fun cs =>
  match skipBlanks cs with
  | [] => stopBefore (.ended .value) []
  | c :: rest =>
    if c = 'n' then (readWord ['u', 'l', 'l'] rest).map ((), ·)
    else refuse expected (c :: rest)

/-- Open a container, if there is room for one. -/
def inRoom (room : Nat) (inside : Nat → Reader α) : Reader α := fun cs =>
  match room with
  | 0 => stopBefore .tooDeep cs
  | room + 1 => inside room cs

/-- What a word stands for, if it is one of the choices. -/
def pick (choices : List String) (meaning : String → Option α) (word : String) : Except Fault α :=
  match meaning word with
  | some a => .ok a
  | none => .error (.unknownWord word choices)

/-- Read one of a few words as the only key of an object, behind the brace. Its value is `null`.
The key is read like that of any object: whatever stands there without a quotation mark, a number
too, is no key, and is not looked at any further. -/
def readChoiceKey (word : String → Except Fault α) : Reader α := fun cs => do
  match ← nextKey true cs with
  | (none, _) => stopOn .expectedValue (skipBlanks cs)
  | (some key, rest) =>
    let a ← placed rest (word key)
    let rest ← readColon rest
    let ((), rest) ← readNull "unit" rest
    match skipBlanks rest with
    | [] => stopBefore (.ended .object) []
    | d :: rest =>
      if d = '\x7d' then return (a, rest) else stopBefore .expectedValue (d :: rest)

/-- Read one of a few words: a string, or an object with the word as its only key and `null` as the
value. -/
def readChoice (choices : List String) (meaning : String → Option α) (room : Nat) : Reader α :=
  fun cs =>
    match skipBlanks cs with
    | [] => stopBefore (.ended .value) []
    | c :: rest =>
      if c = '"' then do
        let (word, rest) ← readString rest
        let a ← placed rest (pick choices meaning word)
        return (a, rest)
      else if c = '\x7b' then inRoom room (fun _ => readChoiceKey (pick choices meaning)) rest
      else stopOn .expectedValue (c :: rest)

/-- Read an object with known fields, or an array with their values. -/
def readRecord (expected : String) (array object : Nat → Reader α) (room : Nat) : Reader α :=
  fun cs =>
    match skipBlanks cs with
    | [] => stopBefore (.ended .value) []
    | c :: rest =>
      if c = '[' then inRoom room array rest
      else if c = '\x7b' then inRoom room object rest
      else refuse expected (c :: rest)

/-- Read the value of a field behind its key; the field must not be given twice. -/
def readField (name : String) (given : Bool) (value : Reader α) : Reader α := fun cs =>
  if given then stopBefore (.duplicateField name) (behindObject cs)
  else do
    let cs ← readColon cs
    value cs

/-- The value of a field that has to be there. -/
def requireField (name : String) : Option α → Except Fault α
  | some a => .ok a
  | none => .error (.missingField name)

/-- Read a text that holds one value and nothing else but blanks. -/
def readWhole (value : (room : Nat) → Reader α) (cs : List Char) : Except Stop α := do
  let (a, rest) ← value depthLimit cs
  let rest := skipBlanks rest
  if rest.isEmpty then return a else stopOn .trailingCharacters rest

/-- **Read a document**: one value and nothing else but blanks. -/
def readDocument (value : (room : Nat) → Reader α) (text : String) : Except Misreading α :=
  (readWhole value text.toList).mapError (·.within text)

end Shader.Json
