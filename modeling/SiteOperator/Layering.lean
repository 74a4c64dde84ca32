import SiteOperator.Composition

/-!
# Laying an override over a template

Objects are merged key by key at every depth; every other value of the override takes the place of
the template's value, which must have the same type.  A null in the override changes nothing, and
a null in the template is like an absent value.  Some fields of the outermost object are texts that
are joined, the override's on top.
-/

namespace SiteOperator

mutual

/-- What stands in the place of a template's value, if it has one, after an override has been laid
over it. -/
def layer (path : List String) : Json → Option Json → Except Fault (Option Json)
  | .null, base => .ok base
  | value, none => .ok (some value)
  | value, some .null => .ok (some value)
  | .object top, some (.object base) => (layerFields path top base).map fun fields =>
      some (.object fields)
  | value, some base =>
      if base.type = value.type then .ok (some value)
      else .error (.typeMismatch path base.type value.type)

/-- Lays fields over those of a template, in the order of the override's keys. -/
def layerFields (path : List String) : List (String × Json) → Fields → Except Fault Fields
  | [], base => .ok base
  | (key, value) :: rest, base => do
      match ← layer (path ++ [key]) value (base.at? key) with
      | some merged => layerFields path rest (base.put key merged)
      | none => layerFields path rest base

end

/-- The text of a value and that of another one below it, if both are texts. -/
def joinTexts : Json → Option Json → Option Json
  | .string top, some (.string base) => (joinLines (some top) (some base)).map .string
  | _, _ => none

/-- Lays an override over the block of a template.  The texts of the fields in `joined` are joined;
`root` is what the path of a conflict begins with. -/
def layerSpec (root : String) (joined : List String) : List (String × Json) → Fields →
    Except Fault Fields
  | [], base => .ok base
  | (key, value) :: rest, base => do
      match if joined.contains key then joinTexts value (base.at? key) else none with
      | some text => layerSpec root joined rest (base.put key text)
      | none =>
          match ← layer [root, key] value (base.at? key) with
          | some merged => layerSpec root joined rest (base.put key merged)
          | none => layerSpec root joined rest base

end SiteOperator
