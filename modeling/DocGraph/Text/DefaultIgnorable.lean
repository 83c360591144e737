import DocGraph.Text.CharRange

/-!
# Characters that are ignored by default

The property Default_Ignorable_Code_Point: characters that show nothing where they are not
supported, among them joiners, fillers, variation selectors and the code points reserved for more of
their kind.

Such a character could hide in a quoted text, and so it is escaped there.
-/

namespace DocGraph.Text

/-- The code points that are ignored by default. -/
def defaultIgnorableRanges : List (Nat × Nat) :=
  [(0x00ad, 0x00ad), (0x034f, 0x034f), (0x061c, 0x061c), (0x115f, 0x1160), (0x17b4, 0x17b5),
    (0x180b, 0x180f), (0x200b, 0x200f), (0x202a, 0x202e), (0x2060, 0x206f), (0x3164, 0x3164),
    (0xfe00, 0xfe0f), (0xfeff, 0xfeff), (0xffa0, 0xffa0), (0xfff0, 0xfff8), (0x1bca0, 0x1bca3),
    (0x1d173, 0x1d17a), (0xe0000, 0xe0fff)]

/-- Whether a character shows nothing where it is not supported. -/
def isDefaultIgnorable (c : Char) : Bool := inRanges defaultIgnorableRanges c

end DocGraph.Text
