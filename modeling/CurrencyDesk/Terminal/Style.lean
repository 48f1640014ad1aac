import CurrencyDesk.Conversion
/-!
# Items on a terminal

An item takes two lines: its title, and its subtitle behind two spaces. On a terminal
with colours the title is bold, in green if the item can be activated and in red if
not, and the subtitle is dim; without colours nothing is added to the text.

Key definitions: `Style`, `Style.paint`, `Item.render`, `renderItems`.
-/

namespace CurrencyDesk

/-- The ways in which text stands out. -/
inductive Style where
  | title
  | error
  | subtle
deriving DecidableEq

namespace Style

/-- The control sequence that sets one attribute of the text behind it. -/
def control (code : String) : String :=
  "\x1b[" ++ code ++ "m"

/-- The attributes of a style. -/
def attributes : Style → List String
  | .title => ["32", "1"]
  | .error => ["31", "1"]
  | .subtle => ["2"]

/-- A text in a style, if colours are on. -/
def paint (style : Style) (colors : Bool) (text : String) : String :=
  if colors then
    String.join (style.attributes.map control) ++ text ++ control "0"
  else text

end Style

namespace Item

/-- The style of the title of an item. -/
def titleStyle (item : Item) : Style :=
  if item.copies.isSome then .title else .error

/-- The two lines of an item. -/
def render (colors : Bool) (item : Item) : String :=
  item.titleStyle.paint colors item.title ++ "\n  " ++ Style.subtle.paint colors item.subtitle

end Item

/-- The lines of items, one item after the other. -/
def renderItems (colors : Bool) (items : List Item) : String :=
  "\n".intercalate (items.map (·.render colors))

end CurrencyDesk
