import JcosKernel.Framebuffer.Model

/-!
# JcosKernel.Framebuffer.Drawing

The drawing functions of `kernel/framebuffer.c`, cut at their stores.

A drawing function runs with interrupts enabled between `framebuffer_write_begin` and
`framebuffer_write_end`, so that anything may happen between two of its steps; a
`Drawing` is the place it has reached together with its local variables, and
`Drawing.step` takes it to the next place, reading the output again where the source
does.

The result is `Drawing.Ok.step`: over an output that `framebuffer_init` accepted, every
store goes to a pixel of the output. It rests on one promise of the callers. The wide loop of
`framebuffer_fill_rect` tests `col + 1U < x_end`, and when `x_end` is the largest `u32` and the
rectangle starts in an odd column the sum wraps to zero (`DrawCall.Wraps`). No caller draws such
a rectangle: those of `kernel.c`, `splash.c` and `terminal.c` start in column zero, are one pixel
wide, or end in the middle of the screen or within its first 256 cells.
-/

namespace JcosKernel

/-- One store through the framebuffer pointer; a wide one writes `value` twice. -/
structure PixelStore where
  address : BitVec 64
  wide : Bool
  value : BitVec 32
  deriving Repr, DecidableEq

/-- The address of pixel `x` in row `y`. -/
def pixelAt (base : BitVec 64) (pitch y x : BitVec 32) : BitVec 64 :=
  base + 4#64 * (y.setWidth 64 * pitch.setWidth 64 + x.setWidth 64)

/-- `((u64)line & 7ULL) == 0`. -/
def WideAligned (line : BitVec 64) : Prop := line &&& 7 = 0

instance (line : BitVec 64) : Decidable (WideAligned line) := inferInstanceAs (Decidable (_ = _))

/-! ### Colours -/

/-- The position of the lowest set bit of a channel mask, 31 when there is none below. -/
def channelShift (mask : BitVec 32) : Nat → Nat → Nat
  | 0, shift => shift
  | left + 1, shift => if mask.getLsbD shift then shift else channelShift mask left (shift + 1)

/-- `channel`. -/
def channel (value : BitVec 8) (mask : BitVec 32) : BitVec 32 :=
  if mask = 0 then 0
  else
    let shift := channelShift mask 31 0
    ((value.setWidth 32 * (mask >>> shift)) / 255) <<< shift &&& mask

/-- `framebuffer_rgb`. -/
def ScanoutState.framebufferRgb (s : ScanoutState) (r g b : BitVec 8) : BitVec 32 :=
  if s.ready = false then 0
  else if s.output.pixelFormat = 0 then
    r.setWidth 32 ||| g.setWidth 32 <<< 8 ||| b.setWidth 32 <<< 16
  else if s.output.pixelFormat = 1 then
    b.setWidth 32 ||| g.setWidth 32 <<< 8 ||| r.setWidth 32 <<< 16
  else channel r s.output.redMask ||| channel g s.output.greenMask ||| channel b s.output.blueMask

/-- The colour of an RGB332 pixel. -/
def ScanoutState.rgb332 (s : ScanoutState) (pixel : BitVec 8) : BitVec 32 :=
  s.framebufferRgb (BitVec.ofNat 8 ((pixel.toNat / 32 % 8) * 255 / 7))
    (BitVec.ofNat 8 ((pixel.toNat / 4 % 8) * 255 / 7)) (BitVec.ofNat 8 ((pixel.toNat % 4) * 255 / 3))

/-! ### The drawing functions -/

/-- A call of a drawing function. A source row is what memory holds behind the pointer,
`none` for a null one. -/
inductive DrawCall
  | pixel (x y color : BitVec 32)
  | fill (color : BitVec 32)
  | fillRect (x y width height color : BitVec 32)
  | scrollUp (rows fillColor : BitVec 32)
  | blitRgb332Row (x y width : BitVec 32) (source : Option (Nat → BitVec 8))
      (sourceWidth : BitVec 32)

/-- The function returns before it asks for admission. -/
def DrawCall.Empty : DrawCall → Prop
  | .pixel .. | .fill .. => False
  | .fillRect _ _ width height _ => width = 0 ∨ height = 0
  | .scrollUp rows _ => rows = 0
  | .blitRgb332Row _ _ width source sourceWidth => source.isNone ∨ sourceWidth = 0 ∨ width = 0

/-- The locals of `framebuffer_fill`. -/
structure Fill where
  base : BitVec 64
  pitch : BitVec 32
  color : BitVec 32

/-- The locals of `framebuffer_fill_rect`. -/
structure FillRect where
  base : BitVec 64
  pitch : BitVec 32
  x : BitVec 32
  xEnd : BitVec 32
  yEnd : BitVec 32
  color : BitVec 32

/-- The locals of `framebuffer_scroll_up`. -/
structure ScrollUp where
  base : BitVec 64
  pitch : BitVec 32
  height : BitVec 32
  width : BitVec 32
  rows : BitVec 32
  color : BitVec 32

/-- The locals of `framebuffer_blit_rgb332_row`. -/
structure Blit where
  row : BitVec 64
  width : BitVec 32
  source : Nat → BitVec 8
  sourceWidth : BitVec 32

/-- Where an admitted drawing function stands. -/
inductive Drawing
  /-- Just behind `framebuffer_write_begin`. -/
  | entered (call : DrawCall)
  | fillRow (f : Fill) (y : BitVec 32)
  | fillWide (f : Fill) (y x : BitVec 32)
  | fillNarrow (f : Fill) (y x : BitVec 32)
  | rectRow (r : FillRect) (row : BitVec 32)
  | rectWide (r : FillRect) (row col : BitVec 32)
  | rectNarrow (r : FillRect) (row col : BitVec 32)
  | scrollCopy (c : ScrollUp) (y x : BitVec 32)
  | scrollFill (c : ScrollUp) (y x : BitVec 32)
  | blitColumn (b : Blit) (column : BitVec 32)
  /-- Just before `framebuffer_write_end`. -/
  | leaving

/-- `x_end` and `y_end` of `framebuffer_fill_rect`. -/
def rectEnd (start extent limit : BitVec 32) : BitVec 32 :=
  if start + extent < start ∨ limit < start + extent then limit else start + extent

/-- The wide loop of `framebuffer_fill_rect` passes the end of a row of `out`: it visits the odd
columns, the last of which is the largest `u32`, and one more than that is zero. -/
def DrawCall.Wraps (out : FramebufferInfo) : DrawCall → Prop
  | .fillRect x _ width _ _ => x.toNat % 2 = 1 ∧ rectEnd x width out.width = BitVec.allOnes 32
  | .pixel .. | .fill .. | .scrollUp .. | .blitRgb332Row .. => False

/-- The locals of `framebuffer_fill_rect` at its first row. -/
def FramebufferInfo.rect (out : FramebufferInfo) (x y width height color : BitVec 32) : FillRect :=
  ⟨out.physicalBase, out.pixelsPerScanline, x, rectEnd x width out.width,
    rectEnd y height out.height, color⟩

namespace Drawing

/-- The code between `framebuffer_write_begin` and the first loop. -/
def enter (s : ScanoutState) : DrawCall → Option PixelStore × Drawing
  | .pixel x y color =>
    if s.output.width ≤ x ∨ s.output.height ≤ y then (none, leaving)
    else (some ⟨pixelAt s.output.physicalBase s.output.pixelsPerScanline y x, false, color⟩, leaving)
  | .fill color =>
    (none, fillRow ⟨s.output.physicalBase, s.output.pixelsPerScanline, color⟩ 0)
  | .fillRect x y width height color =>
    if s.output.width ≤ x ∨ s.output.height ≤ y then (none, leaving)
    else (none, rectRow (s.output.rect x y width height color) y)
  | .scrollUp rows color =>
    (none, scrollCopy ⟨s.output.physicalBase, s.output.pixelsPerScanline, s.output.height,
      s.output.width, if s.output.height < rows then s.output.height else rows, color⟩ 0 0)
  | .blitRgb332Row x y width source sourceWidth =>
    if s.output.width ≤ x ∨ s.output.height ≤ y then (none, leaving)
    else
      (none, blitColumn ⟨pixelAt s.output.physicalBase s.output.pixelsPerScanline y x,
        if s.output.width - x < width then s.output.width - x else width,
        source.getD fun _ => 0, sourceWidth⟩ 0)

/-- One step of a drawing function: the store it makes, if any, and where it goes. -/
def step (s : ScanoutState) (memory : BitVec 64 → BitVec 32) :
    Drawing → Option PixelStore × Drawing
  | entered call => enter s call
  | fillRow f y =>
    if y < s.output.height then
      if WideAligned (pixelAt f.base f.pitch y 0) then (none, fillWide f y 0)
      else (none, fillNarrow f y 0)
    else (none, leaving)
  | fillWide f y x =>
    if x + 1 < s.output.width then
      (some ⟨pixelAt f.base f.pitch y 0 + 8#64 * (x >>> 1).setWidth 64, true, f.color⟩,
        fillWide f y (x + 2))
    else (none, fillNarrow f y x)
  | fillNarrow f y x =>
    if x < s.output.width then
      (some ⟨pixelAt f.base f.pitch y 0 + 4#64 * x.setWidth 64, false, f.color⟩, fillNarrow f y (x + 1))
    else (none, fillRow f (y + 1))
  | rectRow r row =>
    if row < r.yEnd then
      if WideAligned (pixelAt r.base r.pitch row r.x) then (none, rectWide r row r.x)
      else (none, rectNarrow r row r.x)
    else (none, leaving)
  | rectWide r row col =>
    if col + 1 < r.xEnd then
      (some ⟨pixelAt r.base r.pitch row r.x + 8#64 * ((col - r.x) >>> 1).setWidth 64, true, r.color⟩,
        rectWide r row (col + 2))
    else (none, rectNarrow r row col)
  | rectNarrow r row col =>
    if col < r.xEnd then
      (some ⟨pixelAt r.base r.pitch row r.x + 4#64 * (col - r.x).setWidth 64, false, r.color⟩,
        rectNarrow r row (col + 1))
    else (none, rectRow r (row + 1))
  | scrollCopy c y x =>
    if y < c.height - c.rows then
      if x < c.width then
        (some ⟨pixelAt c.base c.pitch y x, false, memory (pixelAt c.base c.pitch (y + c.rows) x)⟩,
          scrollCopy c y (x + 1))
      else (none, scrollCopy c (y + 1) 0)
    else (none, scrollFill c (c.height - c.rows) 0)
  | scrollFill c y x =>
    if y < c.height then
      if x < c.width then
        (some ⟨pixelAt c.base c.pitch y x, false, c.color⟩, scrollFill c y (x + 1))
      else (none, scrollFill c (y + 1) 0)
    else (none, leaving)
  | blitColumn b column =>
    if column < b.width then
      (some ⟨b.row + 4#64 * column.setWidth 64, false,
          s.rgb332 (b.source (column.toNat * b.sourceWidth.toNat / b.width.toNat % 2 ^ 32))⟩,
        blitColumn b (column + 1))
    else (none, leaving)
  | leaving => (none, leaving)

end Drawing

/-! ### Addresses -/

/-- The geometry of an output: its pixels do not reach beyond the address space. -/
structure FramebufferInfo.Sound (out : FramebufferInfo) : Prop where
  width_le : out.width.toNat ≤ out.pixelsPerScanline.toNat
  fits : out.physicalBase.toNat +
    4 * ((out.height.toNat - 1) * out.pixelsPerScanline.toNat + out.width.toNat) ≤ 2 ^ 64

/-- The store writes pixels of one row of `out` and nothing else. -/
def PixelStore.InRows (st : PixelStore) (out : FramebufferInfo) : Prop :=
  ∃ y x : Nat, y < out.height.toNat ∧ x + (if st.wide then 1 else 0) < out.width.toNat ∧
    st.address.toNat = out.physicalBase.toNat + 4 * (y * out.pixelsPerScanline.toNat + x)

/-- A row's address plus a column, as a number. -/
theorem toNat_pixelAt_add (base : BitVec 64) (pitch y x : BitVec 32) (k : BitVec 64)
    (n : Nat) (hk : k.toNat = 4 * n) :
    (pixelAt base pitch y x + k).toNat =
      (base.toNat + 4 * (y.toNat * pitch.toNat + x.toNat + n)) % 2 ^ 64 := by
  have hmul : y.toNat * pitch.toNat ≤ (2 ^ 32 - 1) * (2 ^ 32 - 1) :=
    Nat.mul_le_mul (by omega) (by omega)
  have hprod : (y.setWidth 64 * pitch.setWidth 64).toNat = y.toNat * pitch.toNat := by
    rw [BitVec.toNat_mul, BitVec.toNat_setWidth, BitVec.toNat_setWidth,
      Nat.mod_eq_of_lt (show y.toNat < 2 ^ 64 by omega),
      Nat.mod_eq_of_lt (show pitch.toNat < 2 ^ 64 by omega), Nat.mod_eq_of_lt (by omega)]
  have hx : (x.setWidth 64).toNat = x.toNat := by
    rw [BitVec.toNat_setWidth, Nat.mod_eq_of_lt (by omega)]
  have hfour : (4#64).toNat = 4 := rfl
  rw [pixelAt, BitVec.toNat_add, BitVec.toNat_add, BitVec.toNat_mul, BitVec.toNat_add, hx, hfour]
  omega

theorem toNat_narrowOffset (n : BitVec 32) : (4#64 * n.setWidth 64).toNat = 4 * n.toNat := by
  exact Nat.mod_eq_of_lt (show 4 * n.toNat < 2 ^ 64 by omega)

theorem toNat_wideOffset (n : BitVec 32) (h : n.toNat % 2 = 0) :
    (8#64 * (n >>> 1).setWidth 64).toNat = 4 * n.toNat := by
  have hhalf : ((n >>> 1).setWidth 64).toNat = n.toNat / 2 := by
    rw [BitVec.toNat_setWidth, BitVec.toNat_ushiftRight]
    omega
  have height : (8#64).toNat = 8 := rfl
  rw [BitVec.toNat_mul, height]
  omega

variable {col color row x y : BitVec 32} {r : FillRect} {out : FramebufferInfo} {st : PixelStore}
  {d : Drawing} {k : BitVec 64} {c : ScrollUp} {f : Fill} {n : Nat}

namespace FramebufferInfo

/-- The address of pixel `x` in row `y`, counted in numbers that do not wrap. -/
def cell (out : FramebufferInfo) (y x : Nat) : BitVec 64 :=
  BitVec.ofNat 64 (out.physicalBase.toNat + 4 * (y * out.pixelsPerScanline.toNat + x))

theorem Sound.toNat_cell (h : out.Sound) {y x : Nat} (hy : y < out.height.toNat)
    (hx : x < out.width.toNat) :
    (out.cell y x).toNat =
      out.physicalBase.toNat + 4 * (y * out.pixelsPerScanline.toNat + x) := by
  have hrows : y * out.pixelsPerScanline.toNat ≤
      (out.height.toNat - 1) * out.pixelsPerScanline.toNat := Nat.mul_le_mul_right _ (by omega)
  have hfits := h.fits
  exact Nat.mod_eq_of_lt (by omega)

end FramebufferInfo

theorem pixelAt_add (hk : k.toNat = 4 * n) (y x : BitVec 32) :
    pixelAt out.physicalBase out.pixelsPerScanline y x + k = out.cell y.toNat (x.toNat + n) := by
  apply BitVec.eq_of_toNat_eq
  rw [toNat_pixelAt_add _ _ _ _ k n hk, Nat.add_assoc _ x.toNat]
  rfl

theorem pixelAt_eq (y x : BitVec 32) :
    pixelAt out.physicalBase out.pixelsPerScanline y x = out.cell y.toNat x.toNat := by
  rw [← BitVec.add_zero (pixelAt ..), pixelAt_add (n := 0) rfl, Nat.add_zero]

namespace PixelStore

theorem inRows_of_cell (h : out.Sound) {y x : Nat} (hy : y < out.height.toNat)
    (hx : x + (if st.wide then 1 else 0) < out.width.toNat) (haddr : st.address = out.cell y x) :
    st.InRows out :=
  ⟨y, x, hy, hx, haddr ▸ h.toNat_cell hy (Nat.lt_of_le_of_lt (Nat.le_add_right ..) hx)⟩

end PixelStore

/-! ### Where the stores go -/

namespace FillRect

variable (r : FillRect)

/-- The columns of the wide loop do not run into the end of the `u32`s. -/
def Bounded : Prop := ¬ (r.x.toNat % 2 = 1 ∧ r.xEnd = BitVec.allOnes 32)

variable {r} in
/-- No column of the wide loop is the largest `u32`. -/
theorem Bounded.add_one (hw : r.Bounded) (heven : (col - r.x).toNat % 2 = 0) (hle : r.x ≤ col)
    (hend : col ≤ r.xEnd) : (col + 1).toNat = col.toNat + 1 := by
  by_contra hne
  refine hw ⟨by bv_omega, BitVec.eq_of_toNat_eq ?_⟩
  rw [BitVec.toNat_allOnes]
  bv_omega

/-- The rectangle lies in the output. -/
structure Of (out : FramebufferInfo) : Prop where
  base : r.base = out.physicalBase
  pitch : r.pitch = out.pixelsPerScanline
  x_lt : r.x < r.xEnd
  xEnd_le : r.xEnd ≤ out.width
  yEnd_le : r.yEnd ≤ out.height

end FillRect

theorem rectEnd_le (start extent limit : BitVec 32) : rectEnd start extent limit ≤ limit := by
  unfold rectEnd
  split_ifs with h
  · exact BitVec.le_refl _
  · exact BitVec.not_lt.mp fun hlt => h (.inr hlt)

theorem lt_rectEnd {start extent limit : BitVec 32} (hs : start < limit) (he : extent ≠ 0) :
    start < rectEnd start extent limit := by
  unfold rectEnd
  split_ifs with h
  · exact hs
  · bv_omega

namespace Drawing

variable {s : ScanoutState} {memory : BitVec 64 → BitVec 32}

/-- What is known of a drawing function that draws on `out`. -/
def Ok (out : FramebufferInfo) : Drawing → Prop
  | entered (.fillRect x y width height color) =>
    width ≠ 0 ∧ ¬ (DrawCall.fillRect x y width height color).Wraps out
  | entered _ => True
  | fillRow f _ => f.base = out.physicalBase ∧ f.pitch = out.pixelsPerScanline
  | fillWide f y x =>
    f.base = out.physicalBase ∧ f.pitch = out.pixelsPerScanline ∧ y < out.height ∧ x.toNat % 2 = 0
  | fillNarrow f y _ =>
    f.base = out.physicalBase ∧ f.pitch = out.pixelsPerScanline ∧ y < out.height
  | rectRow r _ => r.Of out ∧ r.Bounded
  | rectWide r row col =>
    r.Of out ∧ r.Bounded ∧ row < r.yEnd ∧ r.x ≤ col ∧ (col - r.x).toNat % 2 = 0 ∧ col ≤ r.xEnd
  | rectNarrow r row col => r.Of out ∧ r.Bounded ∧ row < r.yEnd ∧ r.x ≤ col
  | scrollCopy c _ _ | scrollFill c _ _ =>
    c.base = out.physicalBase ∧ c.pitch = out.pixelsPerScanline ∧ c.width = out.width ∧
      c.height = out.height ∧ c.rows ≤ c.height
  | blitColumn b _ =>
    ∃ y x, y < out.height ∧ x < out.width ∧
      b.row = pixelAt out.physicalBase out.pixelsPerScanline y x ∧ b.width ≤ out.width - x
  | leaving => True

/-- What one step must keep: its store is in the rows of the output, and the function
stands at a good place again. -/
def Good (out : FramebufferInfo) (m : Option PixelStore × Drawing) : Prop :=
  (∀ st, m.1 = some st → st.InRows out) ∧ m.2.Ok out

theorem good_none (h : d.Ok out) : Good out (none, d) := ⟨nofun, h⟩

theorem good_some (hst : st.InRows out) (h : d.Ok out) :
    Good out (some st, d) := ⟨fun _ he => Option.some.inj he ▸ hst, h⟩

/-- A narrow store `n` columns to the right of the pixel `(y, x)`. -/
theorem inRows_narrow (h : out.Sound) (hk : k.toNat = 4 * n) (hy : y < out.height)
    (hx : x.toNat + n < out.width.toNat) :
    PixelStore.InRows ⟨pixelAt out.physicalBase out.pixelsPerScanline y x + k, false, color⟩ out :=
  PixelStore.inRows_of_cell h hy (by simpa using hx) (pixelAt_add hk y x)

/-- A wide store there. -/
theorem inRows_wide (h : out.Sound) (hk : k.toNat = 4 * n) (hy : y < out.height)
    (hx : x.toNat + n + 1 < out.width.toNat) :
    PixelStore.InRows ⟨pixelAt out.physicalBase out.pixelsPerScanline y x + k, true, color⟩ out :=
  PixelStore.inRows_of_cell h hy (by simpa using hx) (pixelAt_add hk y x)

theorem inRows_pixel (h : out.Sound) (hy : y < out.height) (hx : x < out.width) :
    PixelStore.InRows ⟨pixelAt out.physicalBase out.pixelsPerScanline y x, false, color⟩ out :=
  PixelStore.inRows_of_cell h hy hx (pixelAt_eq y x)

theorem Ok.enter (h : s.output.Sound) {call : DrawCall} (hd : (entered call).Ok s.output) :
    Good s.output (enter s call) := by
  cases call with
  | pixel x y color =>
    simp only [Drawing.enter]
    split_ifs with hout
    · exact good_none trivial
    · rw [not_or, BitVec.not_le, BitVec.not_le] at hout
      exact good_some (inRows_pixel h hout.2 hout.1) trivial
  | fill color => exact good_none ⟨rfl, rfl⟩
  | fillRect x y width height color =>
    simp only [Drawing.enter]
    split_ifs with hout
    · exact good_none trivial
    · rw [not_or, BitVec.not_le] at hout
      exact good_none ⟨⟨rfl, rfl, lt_rectEnd hout.1 hd.1, rectEnd_le .., rectEnd_le ..⟩, hd.2⟩
  | scrollUp rows color =>
    refine good_none ⟨rfl, rfl, rfl, rfl, ?_⟩
    split_ifs with hrows
    · exact BitVec.le_refl _
    · exact BitVec.not_lt.mp hrows
  | blitRgb332Row x y width source sourceWidth =>
    simp only [Drawing.enter]
    split_ifs with hout
    · exact good_none trivial
    · rw [not_or, BitVec.not_le, BitVec.not_le] at hout
      exact good_none ⟨y, x, hout.2, hout.1, rfl, BitVec.le_refl _⟩
    · rw [not_or, BitVec.not_le, BitVec.not_le] at hout
      exact good_none ⟨y, x, hout.2, hout.1, rfl, BitVec.not_lt.mp (by assumption)⟩

/-! ### One lemma for each loop -/

theorem good_fillRow (hd : (fillRow f y).Ok s.output) :
    Good s.output ((fillRow f y).step s memory) := by
  simp only [step]
  split_ifs with hy ha
  · exact good_none ⟨hd.1, hd.2, hy, rfl⟩
  · exact good_none ⟨hd.1, hd.2, hy⟩
  · exact good_none trivial

section

variable (h : s.output.Sound)
include h

theorem good_fillWide (hd : (fillWide f y x).Ok s.output) :
    Good s.output ((fillWide f y x).step s memory) := by
  obtain ⟨hbase, hpitch, hy, heven⟩ := hd
  simp only [step]
  split_ifs with hx
  · -- an even column is not the largest `u32`, so the test did not wrap
    have hlt : x.toNat + 1 < s.output.width.toNat := by bv_omega
    refine good_some ?_ ⟨hbase, hpitch, hy, by bv_omega⟩
    rw [hbase, hpitch]
    exact inRows_wide h (toNat_wideOffset x heven) hy (by simpa using hlt)
  · exact good_none ⟨hbase, hpitch, hy⟩

theorem good_fillNarrow (hd : (fillNarrow f y x).Ok s.output) :
    Good s.output ((fillNarrow f y x).step s memory) := by
  obtain ⟨hbase, hpitch, hy⟩ := hd
  simp only [step]
  split_ifs with hx
  · refine good_some ?_ ⟨hbase, hpitch, hy⟩
    rw [hbase, hpitch]
    exact inRows_narrow h (toNat_narrowOffset x) hy (by simpa [BitVec.lt_def] using hx)
  · exact good_none ⟨hbase, hpitch⟩

theorem good_scrollCopy (hd : (scrollCopy c y x).Ok s.output) :
    Good s.output ((scrollCopy c y x).step s memory) := by
  obtain ⟨hbase, hpitch, hwidth, hheight, hrows⟩ := id hd
  simp only [step]
  split_ifs with hy hx
  · refine good_some ?_ hd
    rw [hbase, hpitch]
    exact inRows_pixel h (by bv_omega) (hwidth ▸ hx)
  · exact good_none hd
  · exact good_none hd

theorem good_scrollFill (hd : (scrollFill c y x).Ok s.output) :
    Good s.output ((scrollFill c y x).step s memory) := by
  obtain ⟨hbase, hpitch, hwidth, hheight, hrows⟩ := id hd
  simp only [step]
  split_ifs with hy hx
  · refine good_some ?_ hd
    rw [hbase, hpitch]
    exact inRows_pixel h (hheight ▸ hy) (hwidth ▸ hx)
  · exact good_none hd
  · exact good_none trivial

theorem good_blit {b : Blit} {column : BitVec 32} (hd : (blitColumn b column).Ok s.output) :
    Good s.output ((blitColumn b column).step s memory) := by
  obtain ⟨y, x, hy, hx, hrow, hwidth⟩ := id hd
  simp only [step]
  split_ifs with hc
  · refine good_some ?_ hd
    rw [hrow]
    exact inRows_narrow h (toNat_narrowOffset column) hy (by bv_omega)
  · exact good_none trivial

end

theorem good_rectRow (hd : (rectRow r row).Ok s.output) :
    Good s.output ((rectRow r row).step s memory) := by
  obtain ⟨hr, hw⟩ := hd
  simp only [step]
  split_ifs with hrow ha
  · exact good_none ⟨hr, hw, hrow, BitVec.le_refl _, by simp, BitVec.le_of_lt hr.x_lt⟩
  · exact good_none ⟨hr, hw, hrow, BitVec.le_refl _⟩
  · exact good_none trivial

theorem good_rectWide (h : s.output.Sound) (hd : (rectWide r row col).Ok s.output) :
    Good s.output ((rectWide r row col).step s memory) := by
  obtain ⟨hr, hw, hrow, hxcol, heven, hcol⟩ := hd
  have hyEnd := hr.yEnd_le
  have hxEnd := hr.xEnd_le
  simp only [step]
  split_ifs with hlt
  · have hnowrap := hw.add_one heven hxcol hcol
    have hlt' : col.toNat + 1 < r.xEnd.toNat := by bv_omega
    refine good_some ?_ ⟨hr, hw, hrow, by bv_omega, by bv_omega, by bv_omega⟩
    rw [hr.base, hr.pitch]
    exact inRows_wide h (toNat_wideOffset (col - r.x) heven) (by bv_omega) (by bv_omega)
  · exact good_none ⟨hr, hw, hrow, hxcol⟩

theorem good_rectNarrow (h : s.output.Sound) (hd : (rectNarrow r row col).Ok s.output) :
    Good s.output ((rectNarrow r row col).step s memory) := by
  obtain ⟨hr, hw, hrow, hcol⟩ := hd
  have hyEnd := hr.yEnd_le
  have hxEnd := hr.xEnd_le
  simp only [step]
  split_ifs with hlt
  · refine good_some ?_ ⟨hr, hw, hrow, by bv_omega⟩
    rw [hr.base, hr.pitch]
    exact inRows_narrow h (toNat_narrowOffset (col - r.x)) (by bv_omega) (by bv_omega)
  · exact good_none ⟨hr, hw⟩

/-- Every store of a drawing function goes to a pixel of the output. -/
theorem Ok.step (h : s.output.Sound) (hd : d.Ok s.output) : Good s.output (d.step s memory) := by
  cases d with
  | entered call => exact hd.enter h
  | fillRow f y => exact good_fillRow hd
  | fillWide f y x => exact good_fillWide h hd
  | fillNarrow f y x => exact good_fillNarrow h hd
  | rectRow r row => exact good_rectRow hd
  | rectWide r row col => exact good_rectWide h hd
  | rectNarrow r row col => exact good_rectNarrow h hd
  | scrollCopy c y x => exact good_scrollCopy h hd
  | scrollFill c y x => exact good_scrollFill h hd
  | blitColumn b column => exact good_blit h hd
  | leaving => exact good_none trivial

end Drawing

end JcosKernel
