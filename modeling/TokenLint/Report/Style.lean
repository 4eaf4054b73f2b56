import TokenLint.Text.Letter
import TokenLint.Text.Quoted
import TokenLint.FileSet

/-!
# How reports look

Report formats, the way paths are shown, places in words, and terminal colours.
-/

namespace TokenLint

namespace PathStyle

/-- The style meant by an option value. -/
def ofName? (t : Text) : Option PathStyle :=
  let w := Text.word t
  if w = [] || w = "auto" then some .auto
  else if w = "absolute" || w = "abs" then some .absolute
  else if w = "relative" || w = "rel" then some .relative
  else if w = "basename" || w = "base" then some .basename
  else none

/-- The name of a style. -/
def name : PathStyle → Text
  | .absolute => "absolute"
  | .relative => "relative"
  | .basename => "basename"
  | .auto | .verbatim => "auto"

/-- The complaint about an option value that means no style. -/
def invalid (t : Text) : Text :=
  "invalid path mode " ++ Text.quoted t ++ " (expected auto|absolute|relative|basename)"

end PathStyle

namespace Report

/-- The formats of a report. -/
inductive Format where
  | pretty | json | sarif | short
  deriving DecidableEq, Inhabited

namespace Format

/-- The name of a format. -/
def name : Format → Text
  | .pretty => "pretty"
  | .json => "json"
  | .sarif => "sarif"
  | .short => "short"

/-- The format with exactly this name; the empty name means the pretty format. -/
def ofExactName? (t : Text) : Option Format :=
  if t = [] || t = "pretty" then some .pretty
  else if t = "json" then some .json
  else if t = "sarif" then some .sarif
  else if t = "short" then some .short
  else none

/-- The format meant by an option value. -/
def ofName? (t : Text) : Option Format := ofExactName? (Text.word t)

/-- The complaint about an option value that means no format. -/
def invalid (t : Text) : Text :=
  "invalid report format " ++ Text.quoted t ++ " (expected pretty|json|sarif|short)"

/-- The complaint about a format that no report has. -/
def unknown (t : Text) : Text := "unknown report format " ++ Text.quoted t

end Format

/-- The path of a file as a report shows it; empty for an unknown file. -/
def filePath (fs : Option FileSet) (file : UInt32) (style : PathStyle) : Text :=
  match fs with
  | none => []
  | some fs => fs.pathOf file style

/-- The line and column of a place. -/
def lineColumn (fs : Option FileSet) (pos : Pos) : LineColumn :=
  match fs with
  | none => {}
  | some fs => fs.resolve pos

/-- A place in words. -/
def location (fs : Option FileSet) (pos : Pos) (style : PathStyle) : Text :=
  let lc := lineColumn fs pos
  filePath fs pos.file style ++ ":" ++ Text.ofNat lc.line.toNat ++ ":" ++ Text.ofNat lc.column.toNat

/-- A terminal colour: the codes that switch it on and off. -/
structure Colour where
  on : Text
  off : Text
  deriving DecidableEq, Inhabited

namespace Colour

/-- Switches a code on. -/
def escape (code : Text) : Text := 27 :: 91 :: code ++ [109]

/-- The text in a colour, if colours are wanted. -/
def paint (c : Colour) (enabled : Bool) (t : Text) : Text :=
  if enabled then escape c.on ++ t ++ escape c.off else t

def boldRed : Colour := ⟨"31;1", "0;22"⟩
def boldYellow : Colour := ⟨"33;1", "0;22"⟩
def boldGreen : Colour := ⟨"32;1", "0;22"⟩
def boldBlue : Colour := ⟨"34;1", "0;22"⟩
def cyan : Colour := ⟨"36", "0"⟩
def magenta : Colour := ⟨"35", "0"⟩
def green : Colour := ⟨"32", "0"⟩
def red : Colour := ⟨"31", "0"⟩
def bold : Colour := ⟨"1", "22"⟩
def faint : Colour := ⟨"2", "22"⟩

end Colour

end Report

end TokenLint
