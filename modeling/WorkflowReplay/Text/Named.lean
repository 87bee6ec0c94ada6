/-!
# Named values

The values of an enumeration have a name in capitals and small letters.  On the wire the name
is written in capitals with an underscore before each further word: `TimerFired` becomes
`TIMER_FIRED`.
-/

set_option autoImplicit false

namespace WorkflowReplay

class Named (α : Type) where
  name : α → String
  all : List α

namespace Text

/-- Capitals, with an underscore before every capital but the first. -/
def screaming (s : String) : String :=
  String.ofList (go true s.toList)
where
  go (first : Bool) : List Char → List Char
    | [] => []
    | c :: rest =>
      if c.isUpper && !first then '_' :: c :: go false rest else c.toUpper :: go false rest

end Text

def Named.tag {α : Type} [Named α] (a : α) : String := Text.screaming (Named.name a)

def Named.ofTag? (α : Type) [Named α] (tag : String) : Option α :=
  (Named.all (α := α)).find? (fun a => Named.tag a == tag)

end WorkflowReplay
