import CommandTemplate.Text.Blank
import CommandTemplate.Text.Lowercase
import CommandTemplate.Variable.Basic

/-!
# Catalogs

What variables there are, for listing and for completing a token while it is typed. Of several
offers of one name, compared up to the case of ASCII letters, the first is kept.
-/
namespace CommandTemplate

structure CatalogEntry where
  name : String
  synopsis : String
  help : String
  deriving DecidableEq, Repr

def Variable.entry (v : Variable) : CatalogEntry := ⟨v.name, v.synopsis, v.help⟩

structure Catalog where
  entries : List CatalogEntry
  deriving DecidableEq, Repr

namespace Catalog

def get? (c : Catalog) (name : String) : Option CatalogEntry :=
  c.entries.find? fun e => Text.sameAsciiCase e.name name

/-- Adds the entry of a variable, unless its name is taken. -/
def offer (c : Catalog) (v : Variable) : Catalog :=
  if (c.get? v.name).isSome then c else ⟨c.entries ++ [v.entry]⟩

/-- The catalog of the variables that are offered in turn. -/
def ofVariables (vs : List Variable) : Catalog := vs.foldl offer ⟨[]⟩

/-- Takes `word` off the front of the text, if it is there. -/
def withoutFront (word s : List Char) : List Char :=
  if word.isPrefixOf s then s.drop word.length else s

/-- The part of a name that the input has typed so far. -/
def typedName (input : String) : List Char :=
  let s := withoutFront ['{', '{'] (Text.trimStart input.toList)
  Text.lower (withoutFront ['!'] s)

/-- The entries whose names begin with what was typed, whatever the case. -/
def autocomplete (c : Catalog) (input : String) : List CatalogEntry :=
  c.entries.filter fun e => (typedName input).isPrefixOf (Text.lower e.name.toList)

end Catalog
end CommandTemplate
