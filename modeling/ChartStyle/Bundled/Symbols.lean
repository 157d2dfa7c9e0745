import ChartStyle.Registry

/-!
# The bundled symbols

The places of the symbols in the sprite sheet that comes with the library.
-/

set_option autoImplicit false

namespace ChartStyle.Bundled

/-- A symbol by the place and size of its image and the pivot within it, in pixels. -/
def symbol (name : String) (x y width height pivotX pivotY : Nat) : String × SymbolEntry :=
  (name, SymbolEntry.ofPivot (.ofNat x) (.ofNat y) (.ofNat width) (.ofNat height)
    (.ofNat pivotX, .ofNat pivotY))

/-- The bundled symbol registry. -/
def registry : Registry :=
  { symbols := [
      symbol "BOYLAT13" 0 0 18 26 9 22,
      symbol "BOYLAT14" 18 0 18 26 9 22,
      symbol "BOYLAT23" 36 0 18 26 9 22,
      symbol "BOYLAT24" 54 0 18 26 9 22,
      symbol "BOYLAT12" 72 0 18 26 9 22,
      symbol "BOYCAR01" 90 0 20 34 10 30,
      symbol "BOYCAR02" 110 0 20 34 10 30,
      symbol "BOYCAR03" 130 0 20 34 10 30,
      symbol "BOYCAR04" 150 0 20 34 10 30,
      symbol "BOYDEF03" 170 0 18 26 9 22,
      symbol "BCNLAT15" 188 0 10 28 5 27,
      symbol "BCNLAT16" 198 0 10 28 5 27,
      symbol "BCNDEF13" 208 0 10 28 5 27,
      symbol "LIGHTS11" 0 34 30 30 15 29,
      symbol "LIGHTS12" 30 34 30 30 15 29,
      symbol "LIGHTS13" 60 34 30 30 15 29,
      symbol "LITDEF11" 90 34 30 30 15 29,
      symbol "ISODGR01" 120 34 24 24 12 12,
      symbol "DANGER01" 144 34 24 24 12 12,
      symbol "WRECKS01" 168 34 28 16 14 8,
      symbol "WRECKS04" 196 34 28 16 14 8,
      symbol "WRECKS05" 224 34 28 16 14 8,
      symbol "OBSTRN01" 0 64 16 16 8 8,
      symbol "OBSTRN11" 16 64 16 16 8 8,
      symbol "SOUNDG01" 32 64 8 8 4 4,
      symbol "DRGARE01" 40 64 32 32 16 16,
      symbol "FOULAR01" 72 64 32 32 16 16,
      symbol "CBLSUB06" 104 64 32 8 0 4,
      symbol "PIPSOL06" 136 64 32 8 0 4] }

end ChartStyle.Bundled
