/-!
# Styled text

Terminal styles. A plain style leaves every text as it is.
-/

namespace ImportAtlas

structure Style where
  useColors : Bool
  deriving DecidableEq, Repr, Inhabited

namespace Style

def plain : Style := ⟨false⟩

def wrap (on off : Nat) (text : String) : String :=
  "\x1b[" ++ toString on ++ "m" ++ text ++ "\x1b[" ++ toString off ++ "m"

def bold (s : Style) (text : String) : String := if s.useColors then wrap 1 0 text else text

def cyan (s : Style) (text : String) : String := if s.useColors then wrap 36 39 text else text

def dim (s : Style) (text : String) : String := if s.useColors then wrap 2 0 text else text

/-- Messages to the user are coloured whether or not listings are. -/
def red (text : String) : String := wrap 31 39 text

def yellow (text : String) : String := wrap 33 39 text

def green (text : String) : String := wrap 32 39 text

@[simp] theorem bold_plain (text : String) : plain.bold text = text := rfl

@[simp] theorem cyan_plain (text : String) : plain.cyan text = text := rfl

@[simp] theorem dim_plain (text : String) : plain.dim text = text := rfl

end Style

end ImportAtlas
