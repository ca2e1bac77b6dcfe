import Mathlib.Init

/-! JSON texts and their values. A string is the sequence of its UTF-16 code units. -/
namespace NetworkAnalyser.Json

abbrev JString := List UInt16

def utf16 (c : Char) : JString :=
  if c.toNat < 0x10000 then [c.toNat.toUInt16]
  else [(0xD800 + (c.toNat - 0x10000) / 0x400).toUInt16,
    (0xDC00 + (c.toNat - 0x10000) % 0x400).toUInt16]

def JString.ofChars (cs : List Char) : JString := cs.flatMap utf16

inductive Value where
  | null
  | bool (b : Bool)
  | num (text : List Char)
  | str (s : JString)
  | arr (elements : List Value)
  | obj (members : List (JString × Value))

def isWs (c : Char) : Bool := c = ' ' || c = '\t' || c = '\n' || c = '\r'

def Unescaped (c : Char) : Prop := 0x20 ≤ c.toNat ∧ c ≠ '"' ∧ c ≠ '\\'

instance (c : Char) : Decidable (Unescaped c) := inferInstanceAs (Decidable (_ ∧ _))

def escapeUnit (c : Char) : Option UInt16 :=
  if c = '"' then some 0x22
  else if c = '\\' then some 0x5C
  else if c = '/' then some 0x2F
  else if c = 'b' then some 8
  else if c = 'f' then some 12
  else if c = 'n' then some 10
  else if c = 'r' then some 13
  else if c = 't' then some 9
  else none

def hexValue (c : Char) : Option Nat :=
  if '0' ≤ c ∧ c ≤ '9' then some (c.toNat - 48)
  else if 'a' ≤ c ∧ c ≤ 'f' then some (c.toNat - 87)
  else if 'A' ≤ c ∧ c ≤ 'F' then some (c.toNat - 55)
  else none

def hexUnit (a b c d : Char) : Option UInt16 := do
  let a ← hexValue a
  let b ← hexValue b
  let c ← hexValue c
  let d ← hexValue d
  return (((a * 16 + b) * 16 + c) * 16 + d).toUInt16

def isNumberChar (c : Char) : Bool :=
  c.isDigit || c = '-' || c = '+' || c = '.' || c = 'e' || c = 'E'

def validExponent : List Char → Bool
  | [] => true
  | c :: s =>
    let digits := match s with
      | '+' :: s => s
      | '-' :: s => s
      | s => s
    (c = 'e' || c = 'E') && digits ≠ [] && digits.all Char.isDigit

def validFraction : List Char → Bool
  | '.' :: c :: s => c.isDigit && validExponent (s.dropWhile Char.isDigit)
  | s => validExponent s

def validInteger : List Char → Bool
  | '0' :: s => validFraction s
  | c :: s => c.isDigit && validFraction (s.dropWhile Char.isDigit)
  | [] => false

def validNumber : List Char → Bool
  | '-' :: s => validInteger s
  | s => validInteger s

/-- A string and its text, from behind the opening quote to the closing one. -/
inductive StringText : JString → List Char → Prop
  | close : StringText [] ['"']
  | char {c : Char} {s : JString} {t : List Char} (h : Unescaped c) (hs : StringText s t) :
      StringText (utf16 c ++ s) (c :: t)
  | escape {c : Char} {u : UInt16} {s : JString} {t : List Char} (h : escapeUnit c = some u)
      (hs : StringText s t) : StringText (u :: s) ('\\' :: c :: t)
  | unicode {a b c d : Char} {u : UInt16} {s : JString} {t : List Char}
      (h : hexUnit a b c d = some u) (hs : StringText s t) :
      StringText (u :: s) ('\\' :: 'u' :: a :: b :: c :: d :: t)

/-- What a stretch of text stands for: a value, or the elements or members of one with the
closing bracket; the tails are what follows an element or a member. -/
inductive Item where
  | value (v : Value)
  | elements (vs : List Value)
  | elementsTail (vs : List Value)
  | members (ms : List (JString × Value))
  | membersTail (ms : List (JString × Value))

inductive Derives : Item → List Char → Prop
  | ws {c : Char} {i : Item} {t : List Char} (h : isWs c) (ht : Derives i t) : Derives i (c :: t)
  | null : Derives (.value .null) ['n', 'u', 'l', 'l']
  | boolTrue : Derives (.value (.bool true)) ['t', 'r', 'u', 'e']
  | boolFalse : Derives (.value (.bool false)) ['f', 'a', 'l', 's', 'e']
  | num {t : List Char} (hne : t ≠ []) (hchars : ∀ c ∈ t, isNumberChar c)
      (hvalid : validNumber t) : Derives (.value (.num t)) t
  | str {s : JString} {t : List Char} (h : StringText s t) : Derives (.value (.str s)) ('"' :: t)
  | arrEmpty {w : List Char} (hw : ∀ c ∈ w, isWs c) :
      Derives (.value (.arr [])) ('[' :: (w ++ [']']))
  | arr {v : Value} {vs : List Value} {t : List Char} (h : Derives (.elements (v :: vs)) t) :
      Derives (.value (.arr (v :: vs))) ('[' :: t)
  | elements {v : Value} {vs : List Value} {t t' : List Char} (hv : Derives (.value v) t)
      (hvs : Derives (.elementsTail vs) t') : Derives (.elements (v :: vs)) (t ++ t')
  | elementsEnd : Derives (.elementsTail []) [']']
  | elementsMore {vs : List Value} {t : List Char} (h : Derives (.elements vs) t) :
      Derives (.elementsTail vs) (',' :: t)
  | objEmpty {w : List Char} (hw : ∀ c ∈ w, isWs c) :
      Derives (.value (.obj [])) ('\x7b' :: (w ++ ['\x7d']))
  | obj {m : JString × Value} {ms : List (JString × Value)} {t : List Char}
      (h : Derives (.members (m :: ms)) t) : Derives (.value (.obj (m :: ms))) ('\x7b' :: t)
  | members {k : JString} {v : Value} {ms : List (JString × Value)} {t w t' t'' : List Char}
      (hk : StringText k t) (hw : ∀ c ∈ w, isWs c) (hv : Derives (.value v) t')
      (hms : Derives (.membersTail ms) t'') :
      Derives (.members ((k, v) :: ms)) ('"' :: (t ++ (w ++ ':' :: (t' ++ t''))))
  | membersEnd : Derives (.membersTail []) ['\x7d']
  | membersMore {ms : List (JString × Value)} {t : List Char} (h : Derives (.members ms) t) :
      Derives (.membersTail ms) (',' :: t)

end NetworkAnalyser.Json
