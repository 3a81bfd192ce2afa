import DeclSplit.Error
import DeclSplit.Language

/-!
Parsers and where they are kept. The grammar of a language is loaded when it is first asked for, and
what came of it, a parser or a failure, is kept until the store is cleared.
-/
namespace DeclSplit

/-- What comes of loading the grammar of a language. -/
inductive LoadOutcome where
  /-- There is no grammar. -/
  | missing (error : ChunkError)
  /-- There is a grammar, but no parser takes it. -/
  | incompatible (reason : String)
  /-- The parser works by this grammar. -/
  | ready (grammar : Language)
deriving DecidableEq, Repr

/-- Loads grammars. What comes of a load may depend on how many loads there were before it. -/
abbrev Loader := Nat → Language → LoadOutcome

/-- Loads for each language its own grammar. -/
def Loader.bundled : Loader := fun _ => .ready

/-- Has no grammars. -/
def Loader.none : Loader := fun _ language =>
  .missing (.grammarUnavailable language.id "grammar not compiled into this build")

/-- A parser: the grammar it works by, a number that no other parser has, and whether a user of it
failed while holding it. -/
structure Parser where
  grammar : Language
  serial : Nat
  poisoned : Bool
deriving DecidableEq, Repr

/-- What is kept of a language that was asked for. -/
inductive Slot where
  | ready (parser : Parser)
  | unavailable (error : ChunkError)
  | broken (error : ChunkError)
deriving DecidableEq, Repr

/-- What is kept of each language, and how often a grammar was loaded. -/
structure ParserStore where
  slots : Language → Option Slot
  loads : Nat

namespace ParserStore

/-- Nothing was asked for yet. -/
def empty : ParserStore := ⟨fun _ => none, 0⟩

instance : Inhabited ParserStore := ⟨empty⟩

/-- Keeps `slot` for a language. -/
def set (store : ParserStore) (language : Language) (slot : Slot) : ParserStore :=
  { store with slots := fun l => if l = language then some slot else store.slots l }

/-- What is to be kept after loading the grammar of a language, as the load of this number. -/
def loadSlot (loader : Loader) (language : Language) (serial : Nat) : Slot :=
  match loader serial language with
  | .missing error => .unavailable error
  | .incompatible reason => .broken (.grammarBinding language.id reason)
  | .ready grammar => .ready ⟨grammar, serial, false⟩

/-- What is kept of a language, after loading its grammar if nothing is. -/
def request (store : ParserStore) (loader : Loader) (language : Language) : Slot × ParserStore :=
  match store.slots language with
  | some slot => (slot, store)
  | none =>
    let slot := loadSlot loader language store.loads
    (slot, { store.set language slot with loads := store.loads + 1 })

/-- What a slot gives to one who asks for a parser. A grammar that cannot be loaded means that there
is no parser; a grammar that does not bind is an error. -/
def answer : Slot → Except ChunkError (Option Parser)
  | .ready parser => .ok (some parser)
  | .unavailable _ => .ok none
  | .broken error => .error error

/-- The parser of a language. -/
def parser (store : ParserStore) (loader : Loader) (language : Language) :
    Except ChunkError (Option Parser) × ParserStore :=
  let (slot, store) := store.request loader language
  (answer slot, store)

/-- Why there is no parser of a language that was asked for. -/
def failure (store : ParserStore) (language : Language) : Option ChunkError :=
  match store.slots language with
  | some (.unavailable error) => some error
  | some (.broken error) => some error
  | _ => none

/-- Forgets all languages. Loads stay counted. -/
def clear (store : ParserStore) : ParserStore :=
  { store with slots := fun _ => none }

/-- The languages of which something is kept, in registry order. -/
def cached (store : ParserStore) : List Language :=
  Language.all.filter fun l => (store.slots l).isSome

/-- Marks the parser of a language as failed in use, after loading it if need be. -/
def poison (store : ParserStore) (loader : Loader) (language : Language) : ParserStore :=
  match store.request loader language with
  | (.ready parser, store) => store.set language (.ready { parser with poisoned := true })
  | (_, store) => store

/-- The store in diagnostic text. -/
def describe (store : ParserStore) : String :=
  let languages := ", ".intercalate (store.cached.map (·.label))
  "GrammarProvider \x7b cached: [" ++ languages ++ "], loads: " ++ store.loads.repr ++ ", .. \x7d"

end ParserStore

end DeclSplit
