import Mathlib

/-!
# The dimensions of a JPEG

`_jpeg_dimensions` goes from marker to marker, over fill bytes, standalone markers and the payloads
of segments, to the first frame header.  `TEM` stands alone too, but is not one of
`_STANDALONE_MARKERS`: the two bytes after it are taken for a length.
-/

namespace TimelapseManager.Cameras.ImageInfo

abbrev Bytes := List UInt8

/-- `_SOF_MARKERS`. -/
def sofMarkers : Bytes :=
  [0xC0, 0xC1, 0xC2, 0xC3, 0xC5, 0xC6, 0xC7, 0xC9, 0xCA, 0xCB, 0xCD, 0xCE, 0xCF]

/-- The `RST` markers. -/
def restarts : Bytes := [0xD0, 0xD1, 0xD2, 0xD3, 0xD4, 0xD5, 0xD6, 0xD7]

/-- `_STANDALONE_MARKERS`. -/
def standaloneMarkers : Bytes := [0xD8, 0xD9] ++ restarts

inductive Format
  | jpeg
  | png

/-- `detect_format`. -/
def detectFormat (data : Bytes) : Option Format :=
  if data.take 2 = [0xFF, 0xD8] then some .jpeg
  else if data.take 8 = [0x89, 0x50, 0x4E, 0x47, 0x0D, 0x0A, 0x1A, 0x0A] then some .png
  else none

/-- `struct.unpack` of one big-endian number. -/
def unpack (bytes : Bytes) : ℕ :=
  bytes.foldl (fun value byte => value * 256 + byte.toNat) 0

/-- The loop of `_jpeg_dimensions`, on the bytes from its `offset` on. -/
def jpegDimensions : Bytes → Option (ℕ × ℕ)
  | first :: marker :: rest =>
    if first ≠ 0xFF then jpegDimensions (marker :: rest)
    else if marker = 0xFF then jpegDimensions (marker :: rest)
    else if marker ∈ standaloneMarkers then jpegDimensions rest
    else if rest.length < 2 then none
    else if unpack (rest.take 2) < 2 then none
    else if marker ∈ sofMarkers then
      if rest.length < 7 then none
      else some (unpack ((rest.drop 5).take 2), unpack ((rest.drop 3).take 2))
    else jpegDimensions (rest.drop (unpack (rest.take 2)))
  | _ => none
termination_by data => data.length

/-- `_png_dimensions`. -/
def pngDimensions (data : Bytes) : Option (ℕ × ℕ) :=
  if data.length < 24 ∨ (data.drop 12).take 4 ≠ [0x49, 0x48, 0x44, 0x52] then none
  else some (unpack ((data.drop 16).take 4), unpack ((data.drop 20).take 4))

/-- `read_dimensions`.  Every `unpack` is given its bytes, so nothing is raised. -/
def readDimensions (data : Bytes) : Option (ℕ × ℕ) :=
  match detectFormat data with
  | some .jpeg => jpegDimensions (data.drop 2)
  | some .png => pngDimensions data
  | none => none

/-! ## Well-formed files -/

def pack (value : ℕ) : Bytes := [.ofNat (value / 256), .ofNat value]

/-- A marker after fill bytes. -/
def marked (fill : ℕ) (marker : UInt8) (rest : Bytes) : Bytes :=
  0xFF :: (List.replicate fill 0xFF ++ marker :: rest)

/-- A length and the payload it counts. -/
def sized (payload : Bytes) : Bytes := pack (payload.length + 2) ++ payload

def tem : UInt8 := 0x01

/-- What stands in front of the frame header. -/
inductive Part
  | segment (marker : UInt8) (payload : Bytes)
  | standalone (marker : UInt8)

def Part.WellFormed : Part → Prop
  | .segment marker payload =>
    marker ∉ sofMarkers ++ standaloneMarkers ++ [tem, 0xFF] ∧ payload.length + 2 < 65536
  | .standalone marker => marker ∈ tem :: restarts

/-- The part after fill bytes, in front of the rest. -/
def Part.write (fill : ℕ) (rest : Bytes) : Part → Bytes
  | .segment marker payload => marked fill marker (sized payload ++ rest)
  | .standalone marker => marked fill marker rest

/-- A complete `SOF` segment. -/
structure FrameHeader where
  marker : UInt8
  precision : UInt8
  height : UInt16
  width : UInt16
  components : Bytes
  isSof : marker ∈ sofMarkers
  fits : components.length + 7 < 65536

def FrameHeader.payload (header : FrameHeader) : Bytes :=
  header.precision :: (pack header.height.toNat ++ pack header.width.toNat ++ header.components)

/-- The file: its parts and its frame header, with the fill bytes of each. -/
def jpeg (parts : List (ℕ × Part)) (fill : ℕ) (header : FrameHeader) (trailing : Bytes) : Bytes :=
  [0xFF, 0xD8] ++ parts.foldr (fun part rest => part.2.write part.1 rest)
    (marked fill header.marker (sized header.payload ++ trailing))

/-! ## The scan -/

section Scan

variable {marker : UInt8} {fill : ℕ} {rest payload : Bytes}

theorem unpack_pack {value : ℕ} (hValue : value < 65536) : unpack (pack value) = value := by
  simp [unpack, pack]
  omega

theorem jpegDimensions_marked :
    jpegDimensions (marked fill marker rest) = jpegDimensions (0xFF :: marker :: rest) := by
  induction fill with
  | zero => rfl
  | succ fill ih =>
    rw [marked, List.replicate_succ, List.cons_append, jpegDimensions, if_neg (by simp),
      if_pos rfl]
    exact ih

theorem jpegDimensions_standalone (hMarker : marker ∈ standaloneMarkers) :
    jpegDimensions (marked fill marker rest) = jpegDimensions rest := by
  have hCode : marker ≠ 0xFF := by
    rintro rfl
    revert hMarker
    decide
  rw [jpegDimensions_marked, jpegDimensions, if_neg (by simp), if_neg hCode, if_pos hMarker]

theorem jpegDimensions_sized (hCode : marker ≠ 0xFF) (hMarker : marker ∉ standaloneMarkers)
    (hFits : payload.length + 2 < 65536) :
    jpegDimensions (marked fill marker (sized payload ++ rest)) =
      if marker ∈ sofMarkers then
        if (sized payload ++ rest).length < 7 then none
        else some (unpack (((sized payload ++ rest).drop 5).take 2),
          unpack (((sized payload ++ rest).drop 3).take 2))
      else jpegDimensions rest := by
  have hTake : (sized payload ++ rest).take 2 = pack (payload.length + 2) := rfl
  have hDrop : (sized payload ++ rest).drop (payload.length + 2) = rest :=
    List.drop_left' (by simp [sized, pack])
  rw [jpegDimensions_marked, jpegDimensions, if_neg (by simp), if_neg hCode, if_neg hMarker,
    if_neg (by simp [sized, pack]), hTake, unpack_pack hFits, if_neg (by omega), hDrop]

theorem jpegDimensions_header (header : FrameHeader) (trailing : Bytes) :
    jpegDimensions (marked fill header.marker (sized header.payload ++ trailing)) =
      some (header.width.toNat, header.height.toNat) := by
  have hMarker : header.marker ≠ 0xFF ∧ header.marker ∉ standaloneMarkers := by
    have hAll : ∀ marker ∈ sofMarkers, marker ≠ 0xFF ∧ marker ∉ standaloneMarkers := by
      simp [sofMarkers, standaloneMarkers, restarts]
    exact hAll _ header.isSof
  have hFits : header.payload.length + 2 < 65536 := by
    have hComponents := header.fits
    simp [FrameHeader.payload, pack]
    omega
  rw [jpegDimensions_sized hMarker.1 hMarker.2 hFits, if_pos header.isSof, if_neg]
  · change some (unpack (pack header.width.toNat), unpack (pack header.height.toNat)) = _
    rw [unpack_pack header.width.toNat_lt, unpack_pack header.height.toNat_lt]
  · simp [sized, pack, FrameHeader.payload]

theorem jpegDimensions_part {part : Part} (hPart : part.WellFormed)
    (hTem : part ≠ .standalone tem) :
    jpegDimensions (part.write fill rest) = jpegDimensions rest := by
  cases part with
  | segment marker payload =>
    obtain ⟨hMarker, hFits⟩ := hPart
    simp only [List.mem_append, List.mem_cons, List.not_mem_nil, not_or, or_false] at hMarker
    obtain ⟨⟨hSof, hStandalone⟩, -, hCode⟩ := hMarker
    rw [Part.write, jpegDimensions_sized hCode hStandalone hFits, if_neg hSof]
  | standalone marker =>
    cases hPart with
    | head => exact absurd rfl hTem
    | tail _ hRestart => exact jpegDimensions_standalone (List.mem_append_right _ hRestart)

end Scan

/-- Every file without `TEM` is read as what its frame header declares. -/
theorem dimensions_read {parts : List (ℕ × Part)} (hParts : ∀ part ∈ parts, part.2.WellFormed)
    (hTem : ∀ part ∈ parts, part.2 ≠ .standalone tem) (fill : ℕ) (header : FrameHeader)
    (trailing : Bytes) :
    readDimensions (jpeg parts fill header trailing) =
      some (header.width.toNat, header.height.toNat) := by
  change jpegDimensions (parts.foldr _ _) = _
  induction parts with
  | nil => exact jpegDimensions_header header trailing
  | cons part parts ih =>
    obtain ⟨hPart, hParts⟩ := List.forall_mem_cons.mp hParts
    obtain ⟨hNotTem, hTem⟩ := List.forall_mem_cons.mp hTem
    rw [List.foldr_cons, jpegDimensions_part hPart hNotTem]
    exact ih hParts hTem

/-- A grey frame of 32 by 16. -/
def smallHeader : FrameHeader where
  marker := 0xC0
  precision := 8
  height := 16
  width := 32
  components := [1, 1, 0x11, 0]
  isSof := by decide
  fits := by decide

/-- A comment that looks like a frame header, and a restart marker after two fill bytes. -/
theorem dimensions_read_small :
    readDimensions (jpeg [(0, .segment 0xFE [0xFF, 0xC0, 0, 8]), (2, .standalone 0xD0)] 1
      smallHeader [0xFF]) = some (32, 16) :=
  dimensions_read (by simp [Part.WellFormed, sofMarkers, standaloneMarkers, restarts, tem])
    (by simp [tem]) 1 smallHeader [0xFF]

/-- The length read after `TEM` is that of the next marker, beyond the end of the file. -/
theorem tem_unread :
    (Part.standalone tem).WellFormed ∧
      readDimensions (jpeg [(0, .standalone tem)] 0 smallHeader []) = none := by
  refine ⟨List.mem_cons_self, ?_⟩
  decide +kernel

end TimelapseManager.Cameras.ImageInfo
