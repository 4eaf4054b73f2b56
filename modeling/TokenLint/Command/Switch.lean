import TokenLint.Text.Letter
import TokenLint.Text.Quoted

/-!
# Switches

Options that are on, off, or decided by the terminal.
-/

namespace TokenLint.Command

/-- On, off, or whatever the terminal says. -/
inductive Switch where
  | auto | on | off
  deriving DecidableEq, Inhabited

namespace Switch

/-- The name of a setting. -/
def name : Switch → Text
  | .auto => "auto"
  | .on => "on"
  | .off => "off"

/-- Is it on, given what the terminal says? -/
def isOn (terminal : Bool) : Switch → Bool
  | .auto => terminal
  | .on => true
  | .off => false

/-- The setting meant by a value of the option for progress. -/
def ofProgressValue (t : Text) : Except Text Switch :=
  let w := Text.word t
  if w = [] || w = "auto" then .ok .auto
  else if w = "on" then .ok .on
  else if w = "off" then .ok .off
  else .error ("invalid --ui value " ++ Text.quoted t ++ " (expected auto|on|off)")

/-- The setting meant by a value of the option for colours. -/
def ofColourValue (t : Text) : Except Text Switch :=
  let w := Text.word t
  if w = [] || w = "auto" then .ok .auto
  else if w = "on" || w = "always" then .ok .on
  else if w = "off" || w = "never" then .ok .off
  else .error ("invalid --color value " ++ Text.quoted t ++ " (expected auto|on|off)")

/-- Is progress shown for a number of files? For less than two it never is. -/
def showsProgress (s : Switch) (terminal : Bool) (files : Nat) : Bool := 2 ≤ files && s.isOn terminal

end Switch

end TokenLint.Command
