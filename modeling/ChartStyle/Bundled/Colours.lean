import ChartStyle.Colour.Palette

/-!
# The bundled colours

The colour tokens of the presentation library with their colours by day, at dusk and by night.
-/

set_option autoImplicit false

namespace ChartStyle.Bundled

/-- A colour token with its colours in the three modes. -/
structure ColourRow where
  token : String
  day : String
  dusk : String
  night : String

/-- The bundled colour tokens. -/
def colours : List ColourRow := [
  ⟨"NODTA", "#93aebb", "#3a484f", "#141b1e"⟩,
  ⟨"CHBLK", "#000000", "#525a5c", "#313637"⟩,
  ⟨"CHGRD", "#4c5b63", "#717a7d", "#3a4144"⟩,
  ⟨"CHGRF", "#a3b4b7", "#404a4e", "#1e2426"⟩,
  ⟨"CHRED", "#f00000", "#d82a1f", "#521410"⟩,
  ⟨"CHGRN", "#52c700", "#3e9600", "#1d3d00"⟩,
  ⟨"CHYLW", "#f1e800", "#c2ba00", "#4a4700"⟩,
  ⟨"CHMGD", "#c045d1", "#9b3aaa", "#3e1846"⟩,
  ⟨"CHMGF", "#d1a2f2", "#5f3b6e", "#2a1b31"⟩,
  ⟨"CHWHT", "#ffffff", "#d4d9db", "#4f5557"⟩,
  ⟨"CHBRN", "#a0521e", "#6d3812", "#2d1706"⟩,
  ⟨"CSTLN", "#525a5c", "#8d9599", "#3c4244"⟩,
  ⟨"LANDA", "#c9b97a", "#3c3625", "#1c190f"⟩,
  ⟨"LANDF", "#8b6614", "#6c5210", "#2e2206"⟩,
  ⟨"DEPIT", "#8ab47c", "#2f3e27", "#131a10"⟩,
  ⟨"DEPVS", "#73b6ef", "#1a4663", "#0b1d29"⟩,
  ⟨"DEPMS", "#98c5f2", "#173950", "#091721"⟩,
  ⟨"DEPMD", "#bad5e1", "#142e3e", "#07121a"⟩,
  ⟨"DEPDW", "#d4eaee", "#0c1a22", "#03080b"⟩,
  ⟨"DEPSC", "#525a5c", "#a6adb0", "#4a5154"⟩,
  ⟨"DEPCN", "#7b8d94", "#6f7b80", "#2f3537"⟩,
  ⟨"SNDG1", "#7b8d94", "#7b8d94", "#2f3537"⟩,
  ⟨"SNDG2", "#000000", "#c6cdd0", "#4f5557"⟩,
  ⟨"SNDG3", "#c43022", "#e0573e", "#5e1a12"⟩,
  ⟨"LITRD", "#f00000", "#d82a1f", "#521410"⟩,
  ⟨"LITGN", "#11c700", "#3e9600", "#1d3d00"⟩,
  ⟨"LITYW", "#f1e800", "#c2ba00", "#4a4700"⟩,
  ⟨"TRFCD", "#c045d1", "#9b3aaa", "#3e1846"⟩,
  ⟨"RESBL", "#3aa0e0", "#2b6f9a", "#11303f"⟩,
  ⟨"UINFD", "#000000", "#d4d9db", "#4f5557"⟩]

/-- The bundled palette. -/
def palette : Palette :=
  { day := colours.map fun row => (row.token, row.day)
    dusk := colours.map fun row => (row.token, row.dusk)
    night := colours.map fun row => (row.token, row.night) }

end ChartStyle.Bundled
