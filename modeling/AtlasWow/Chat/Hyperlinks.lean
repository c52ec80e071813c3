/-
Links in chat (`Hyperlinks.cpp`): a link is parsed through a pointer into the
message, and checked by the validator of its tag. The validators of the plain
tags and of spells are here; those that look into the other stores are
parameters. What a configuration makes strict is the text.
-/
import AtlasWow.Lib.CString
import AtlasWow.Lib.InputStream

namespace AtlasWow.Hyperlinks

open Reading

/-- Some characters from a pointer on. -/
structure Span where
  start : List Char
  length : Nat
  deriving DecidableEq

def Span.chars (s : Span) : List Char := s.start.take s.length

structure HyperlinkColor where
  r : Nat
  g : Nat
  b : Nat
  a : Nat
  deriving DecidableEq

def HyperlinkColor.ofNat (c : Nat) : HyperlinkColor := ⟨(c >>> 16) % 256, (c >>> 8) % 256, c % 256, (c >>> 24) % 256⟩

structure HyperlinkInfo where
  next : List Char
  color : HyperlinkColor
  tag : Span
  data : Span
  text : Span
  deriving DecidableEq

/-! ### The parser -/

def toHex (c : Char) : Nat :=
  if '0'.toNat ≤ c.toNat ∧ c.toNat ≤ '9'.toNat then c.toNat - '0'.toNat + 0x10
  else if 'a'.toNat ≤ c.toNat ∧ c.toNat ≤ 'f'.toNat then c.toNat - 'a'.toNat + 0x1a
  else 0x00

/-- So many hexadecimal characters. -/
def readColor : Nat → Nat → List Char → Reading (Nat × List Char)
  | 0, color, pos => ok (color, pos)
  | _ + 1, _, [] => past
  | n + 1, color, c :: pos =>
    if toHex c ≠ 0 then readColor n ((color <<< 4 ||| toHex c &&& 0xf) % 2 ^ 32) pos else failed

/-- From the visible link text on. -/
def parseText (color : Nat) (tag data : Span) (textStart : List Char) : Reading HyperlinkInfo := do
  -- skip until we hit the next ], abort on unexpected |
  let (textLength, pos) ← span (fun c => c = '|' || c = ']') textStart
  if pos.head? = some '|' then failed
  else do
    -- link end tag
    let pos ← expect '|' (advance ']' pos)
    let pos ← expect 'h' pos
    let pos ← expect '|' pos
    let next ← expect 'r' pos
    ok ⟨next, .ofNat color, tag, data, ⟨textStart, textLength⟩⟩

/-- From the link data on. -/
def parseData (color : Nat) (tag : Span) (dataStart : List Char) : Reading HyperlinkInfo := do
  -- ok, link data, skip to next |
  let (dataLength, pos) ← span (fun c => c = '|') dataStart
  -- ok, next should be link data end tag, then visible link text
  let pos ← expect 'h' (advance '|' pos)
  let textStart ← expect '[' pos
  parseText color tag ⟨dataStart, dataLength⟩ textStart

def parseHyperlink (pos : List Char) : Reading HyperlinkInfo := do
  -- color tag
  let pos ← expect '|' pos
  let pos ← expect 'c' pos
  let (color, pos) ← readColor 8 0 pos
  -- link data start tag
  let pos ← expect '|' pos
  let tagStart ← expect 'H' pos
  -- link tag, find next : or |; one past if it is :
  let (tagLength, pos) ← span (fun c => c = '|' || c = ':') tagStart
  parseData color ⟨tagStart, tagLength⟩ (advance ':' pos)

/-! ### The validators -/

/-- The tags, in the order they are tried in. -/
inductive LinkTag where
  | achievement | area | areatrigger | creature | creatureEntry | enchant | gameevent | gameobject | gameobjectEntry | glyph
  | item | itemset | player | quest | skill | spell | talent | taxinode | tele | title | trade
  deriving DecidableEq

namespace LinkTag

def tag : LinkTag → List Char
  | achievement => "achievement".toList
  | area => "area".toList
  | areatrigger => "areatrigger".toList
  | creature => "creature".toList
  | creatureEntry => "creature_entry".toList
  | enchant => "enchant".toList
  | gameevent => "gameevent".toList
  | gameobject => "gameobject".toList
  | gameobjectEntry => "gameobject_entry".toList
  | glyph => "glyph".toList
  | item => "item".toList
  | itemset => "itemset".toList
  | player => "player".toList
  | quest => "quest".toList
  | skill => "skill".toList
  | spell => "spell".toList
  | talent => "talent".toList
  | taxinode => "taxinode".toList
  | tele => "tele".toList
  | title => "title".toList
  | trade => "trade".toList

def all : List LinkTag :=
  [achievement, area, areatrigger, creature, creatureEntry, enchant, gameevent, gameobject, gameobjectEntry, glyph, item,
    itemset, player, quest, skill, spell, talent, taxinode, tele, title, trade]

end LinkTag

/-- A tag's `StoreTo`, and its `LinkValidator`. -/
structure LinkValidator where
  Value : Type
  storeTo : List Char → Option Value
  isColorValid : Value → HyperlinkColor → Bool
  isTextValid : Value → List Char → Bool

/-- `std::stoull`; `none` where it throws. -/
def stoull (s : List Char) : Option Nat :=
  let signed := IStream.sign (s.dropWhile IStream.isSpace)
  let digits := signed.2.takeWhile Char.isDigit
  let n := Nat.ofDigitChars 10 digits 0
  if digits.isEmpty || 2 ^ 64 ≤ n then none else some (if signed.1 then (2 ^ 64 - n) % 2 ^ 64 else n)

/-- `equal_with_len`, of a name with its NUL: a text is not read beyond its length. -/
def equalLoop : List Char → List Char → Nat → Reading Bool
  | [], _, _ => past
  | c :: str1, str2, len =>
    if len ≠ 0 ∧ c ≠ '\x00' then
      match str2 with
      | [] => past
      | c' :: str2 => if c = c' then equalLoop str1 str2 (len - 1) else ok false
    else ok (len = 0 && c = '\x00')

def equalWithLen (name text : List Char) : Reading Bool :=
  if name = [] then ok false else equalLoop (cstr name) text text.length

namespace LinkValidator

/-- `make_base_tag`, of a `uint32`. -/
def number : LinkValidator where
  Value := Nat
  storeTo data := (stoull data).map (· % 2 ^ 32)
  isColorValid _ _ := true
  isTextValid _ _ := true

/-- `make_base_tag`, of a string. -/
def string : LinkValidator where
  Value := List Char
  storeTo data := some data
  isColorValid _ _ := true
  isTextValid _ _ := true

def CHAT_LINK_COLOR_SPELL : Nat := 0xff71d5ff

/-- Of a spell, with its names: the data is one number. -/
def spell (getSpellInfo : Nat → Option (List (List Char))) : LinkValidator where
  Value := List (List Char)
  storeTo data := if ':' ∈ data then none else (stoull data).bind fun spellId => getSpellInfo (spellId % 2 ^ 32)
  isColorValid _ color := color = .ofNat CHAT_LINK_COLOR_SPELL
  isTextValid names text := names.any fun name => equalWithLen name text = ok true

end LinkValidator

/-- The stores that the validators look into, and whether the texts are checked. -/
structure LinkStores where
  strictLinkChecking : Bool
  getSpellInfo : Nat → Option (List (List Char))
  stored : LinkTag → LinkValidator

variable (stores : LinkStores)

def LinkStores.validator (tag : LinkTag) : LinkValidator :=
  match tag with
  | .area | .areatrigger | .creature | .creatureEntry | .gameevent | .gameobject | .gameobjectEntry | .itemset | .skill
  | .taxinode | .tele | .title => .number
  | .player => .string
  | .spell => .spell stores.getSpellInfo
  | .achievement | .enchant | .glyph | .item | .quest | .talent | .trade => stores.stored tag

/-- The checks of `TryValidateAs`, for the contents of a link. -/
def passes (v : LinkValidator) (color : HyperlinkColor) (data text : List Char) : Bool :=
  match v.storeTo data with
  | none => false
  | some t => v.isColorValid t color && (!stores.strictLinkChecking || v.isTextValid t text)

/-- `TryValidateAs`: `none` where the link has another tag. -/
def tryValidateAs (info : HyperlinkInfo) (tag : LinkTag) : Option Bool :=
  if info.tag.length = tag.tag.length ∧ info.tag.start.take tag.tag.length = tag.tag then
    some (passes stores (stores.validator tag) info.color info.data.chars info.text.chars)
  else none

def validateLinkInfo (info : HyperlinkInfo) : Bool := (LinkTag.all.findSome? (tryValidateAs stores info)).getD false

/-! ### The check of a message -/

/-- Disallow all control sequences except ||, |H, |h, |c and |r; `none` where the string is left. -/
def controlSequences : List Char → Option Bool
  | [] => some true
  | [c] => if c = '|' then none else some true
  | c :: next :: pos =>
    if c ≠ '|' then controlSequences (next :: pos)
    else if next = 'H' || next = 'h' || next = 'c' || next = 'r' || next = '|' then controlSequences pos
    else some false

/-- Parse all link sequences, in no more turns than there are characters. -/
def linkSequences : Nat → List Char → Option Bool
  | 0, _ => none
  | turns + 1, pos =>
    match pos.dropWhile (· ≠ '|') with
    | [] => some true
    | [_] => none
    | bar :: next :: pos =>
      -- this is an escaped pipe character (||)
      if next = '|' then linkSequences turns pos
      else
        match parseHyperlink (bar :: next :: pos) with
        | .past => none
        | .failed => some false
        | .ok info => if validateLinkInfo stores info then linkSequences turns info.next else some false

def checkAllLinks (str : List Char) : Option Bool :=
  match controlSequences (cstr str) with
  | some true => linkSequences stores (cstr str).length (cstr str)
  | result => result

end AtlasWow.Hyperlinks
