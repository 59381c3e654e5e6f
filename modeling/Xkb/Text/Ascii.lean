/-! Names are compared with the case of ASCII letters left aside. -/

namespace Xkb.Text

/-- The text with its ASCII letters in lower case. -/
def foldCase (text : String) : String :=
  String.ofList (text.toList.map Char.toLower)

/-- Whether two names differ in nothing but the case of ASCII letters. -/
def sameName (left right : String) : Bool :=
  foldCase left == foldCase right

/-- The value a table gives to a name, where the first entry of that name counts. -/
def lookupName {α : Type} (table : List (String × α)) (name : String) : Option α :=
  (table.find? fun entry => sameName entry.1 name).map Prod.snd

/-- The part of a text behind a leading text, if it starts with that one. -/
def afterLead (lead text : String) : Option String :=
  (lead.toList.isPrefixOf? text.toList).map String.ofList

end Xkb.Text
