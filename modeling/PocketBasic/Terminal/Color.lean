/-! # Colors -/

namespace PocketBasic

/-- The colors of the shell, and any color for the device screen. -/
inductive Color where
  | black
  | blue
  | cyan
  | red
  | lightGray
  | darkGray
  | yellow
  | white
  | rgb (red green blue : UInt8)
  deriving Repr, DecidableEq, Inhabited

namespace Color

/-- The color written `0xRRGGBB`. -/
def ofHex (n : Nat) : Color :=
  .rgb (n / 0x10000).toUInt8 (n / 0x100).toUInt8 n.toUInt8

/-- Red, green and blue of a color. -/
def components : Color → UInt8 × UInt8 × UInt8
  | .black => (0x00, 0x00, 0x00)
  | .blue => (0x00, 0x00, 0xAA)
  | .cyan => (0x00, 0xAA, 0xAA)
  | .red => (0xAA, 0x00, 0x00)
  | .lightGray => (0xAA, 0xAA, 0xAA)
  | .darkGray => (0x55, 0x55, 0x55)
  | .yellow => (0xFF, 0xFF, 0x55)
  | .white => (0xFF, 0xFF, 0xFF)
  | .rgb r g b => (r, g, b)

/-- The parameters that select the color for a layer: 38 is the text, 48 what is behind it. -/
def parameters (c : Color) (layer : Nat) : String :=
  let (r, g, b) := c.components
  toString layer ++ ";2;" ++ toString r.toNat ++ ";" ++ toString g.toNat ++ ";" ++ toString b.toNat

/-- The parameters that select a pair of colors. -/
def pairParameters (fg bg : Color) : String :=
  fg.parameters 38 ++ ";" ++ bg.parameters 48

end Color

end PocketBasic
