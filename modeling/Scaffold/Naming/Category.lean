/-
  Operations by resource.

  The name of an operation is a verb, perhaps followed by the resource it works on. `category`
  names the resource in the singular, so that operations on one thing and on many of them come
  together.
-/
import Scaffold.Naming.Words

namespace Scaffold.Naming

/-- Resources with their plurals. -/
def plurals : List (String × String) :=
  [("resource", "resources"), ("tool", "tools"), ("prompt", "prompts"), ("root", "roots"),
   ("message", "messages"), ("template", "templates"), ("capability", "capabilities"),
   ("entry", "entries"), ("status", "statuses")]

/-- The plural of a word. -/
def pluralize (word : String) : String :=
  match plurals.find? fun p => p.1 == word with
  | some p => p.2
  | none => word ++ "s"

/-- A word without an ending, if it has it. -/
def without (ending word : List Char) : Option (List Char) :=
  if ending.reverse.isPrefixOf word.reverse then some (word.take (word.length - ending.length))
  else none

/-- The singular of a word by its ending. -/
def singularByEnding (word : List Char) : List Char :=
  match without ['i', 'e', 's'] word with
  | some stem => stem ++ ['y']
  | none =>
    match without ['e', 's'] word, without ['s', 'e', 's'] word with
    | some stem, some _ => stem
    | _, _ =>
      match without ['s'] word, without ['s', 's'] word with
      | some stem, none => stem
      | _, _ => word

/-- The singular of a word. -/
def singularize (word : String) : String :=
  match plurals.find? fun p => p.2 == word with
  | some p => p.1
  | none =>
    if plurals.any fun p => p.1 == word then word
    else String.ofList (singularByEnding word.toList)

/-- The verbs that a resource can follow. -/
def verbs : List String :=
  ["get", "list", "create", "update", "delete", "read", "call", "set", "subscribe", "unsubscribe",
   "complete", "initialize", "ping", "cancel", "notify"]

/-- The verbs of operations that change the state of a server. -/
def mutationVerbs : List String :=
  ["create", "update", "delete", "set", "subscribe", "unsubscribe", "cancel"]

/-- The words of a name in small letters. -/
def lowerWords (name : String) : List String :=
  (wordList name.toList).map fun w => String.ofList (lowerAll w)

/-- The verb of an operation: its first word, empty without one. -/
def verb (name : String) : String :=
  (lowerWords name).headD ""

/-- Whether an operation changes the state of a server. -/
def isMutation (name : String) : Bool :=
  mutationVerbs.contains (verb name)

/-- The category of an operation without a resource. -/
def defaultCategory : String := "core"

/-- Words with the last in the singular. -/
def singularLast : List String → List String
  | [] => []
  | [w] => [singularize w]
  | w :: rest => w :: singularLast rest

/-- Words with low lines between them. -/
def joinWords (ws : List String) : String :=
  "_".intercalate ws

/-- The category of an operation by the words of its name. -/
def categoryByName (name : String) : String :=
  match lowerWords name with
  | v :: w :: rest =>
    if verbs.contains v then joinWords (singularLast (w :: rest)) else defaultCategory
  | _ => defaultCategory

/-- The category of an operation: the one it is put into, or the one of its name. -/
def category (groups : List (String × String)) (name : String) : String :=
  match groups.find? fun g => g.1 == name with
  | some g => g.2
  | none => categoryByName name

end Scaffold.Naming
