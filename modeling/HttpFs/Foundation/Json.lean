import HttpFs.Foundation.Text

namespace HttpFs.Json

/-! Concrete JSON syntax: strings and primitives carry their source text, and
every place where white space may stand carries the gap that stands there. -/

mutual
inductive Value where
  | string (raw : Bytes)
  | primitive (raw : Bytes)
  | array (items : Items)
  | object (members : Members)

inductive Items where
  | nil (gap : Bytes)
  | cons (before : Bytes) (value : Value) (after : Bytes) (rest : Items)

inductive Members where
  | nil (gap : Bytes)
  | cons (before key keyGap valueGap : Bytes) (value : Value) (after : Bytes)
      (rest : Members)
end

def Items.separator : Items → Bytes
  | .nil _ => []
  | .cons _ _ _ _ => [byte ',']

def Members.separator : Members → Bytes
  | .nil _ => []
  | .cons _ _ _ _ _ _ _ => [byte ',']

def quoted (raw : Bytes) : Bytes := byte '"' :: (raw ++ [byte '"'])

mutual
def Value.text : Value → Bytes
  | .string raw => quoted raw
  | .primitive raw => raw
  | .array items => byte '[' :: (items.text ++ [byte ']'])
  | .object members => byte '{' :: (members.text ++ [byte '}'])

def Items.text : Items → Bytes
  | .nil gap => gap
  | .cons before value after rest =>
      before ++ (value.text ++ (after ++ (rest.separator ++ rest.text)))

def Members.text : Members → Bytes
  | .nil gap => gap
  | .cons before key keyGap valueGap value after rest =>
      before ++ (quoted key ++ (keyGap ++ (byte ':' :: (valueGap ++
        (value.text ++ (after ++ (rest.separator ++ rest.text)))))))
end

/-! The number of values and keys a document consists of. -/

mutual
def Value.count : Value → Nat
  | .string _ => 1
  | .primitive _ => 1
  | .array items => items.count + 1
  | .object members => members.count + 1

def Items.count : Items → Nat
  | .nil _ => 0
  | .cons _ value _ rest => value.count + rest.count

def Members.count : Members → Nat
  | .nil _ => 0
  | .cons _ _ _ _ value _ rest => value.count + 1 + rest.count
end

def isGap (gap : Bytes) : Bool :=
  gap.all fun c => c == byte ' ' || c == byte '\t' || c == byte '\r' || c == byte '\n'

theorem isGap_nil : isGap [] = true := rfl

/-! All gaps are white space, all strings and keys satisfy `isString` and all
primitives satisfy `isPrimitive`. -/

mutual
def Value.Lexical (isString isPrimitive : Bytes → Bool) : Value → Prop
  | .string raw => isString raw = true
  | .primitive raw => isPrimitive raw = true
  | .array items => items.Lexical isString isPrimitive
  | .object members => members.Lexical isString isPrimitive

def Items.Lexical (isString isPrimitive : Bytes → Bool) : Items → Prop
  | .nil gap => isGap gap = true
  | .cons before value after rest =>
      isGap before = true ∧ value.Lexical isString isPrimitive ∧
        isGap after = true ∧ rest.Lexical isString isPrimitive

def Members.Lexical (isString isPrimitive : Bytes → Bool) : Members → Prop
  | .nil gap => isGap gap = true
  | .cons before key keyGap valueGap value after rest =>
      isGap before = true ∧ isString key = true ∧ isGap keyGap = true ∧
        isGap valueGap = true ∧ value.Lexical isString isPrimitive ∧
        isGap after = true ∧ rest.Lexical isString isPrimitive
end

/-- The value of the first member with the given key text. -/
def Members.find (name : Bytes) : Members → Option Value
  | .nil _ => none
  | .cons _ key _ _ value _ rest => if key = name then some value else rest.find name

def Items.toList : Items → List Value
  | .nil _ => []
  | .cons _ value _ rest => value :: rest.toList

end HttpFs.Json
