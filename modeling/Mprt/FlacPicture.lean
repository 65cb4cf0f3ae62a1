import Mathlib.Data.List.AList
import Mprt.ByteOrder

/-!
# The pictures of FLAC metadata

`parse_flac_pict` goes through a METADATA_BLOCK_PICTURE with a pointer and a count
of the bytes left, reads the MIME type, the description and the length of the data,
and stores what is left as album art. Every read and every step of the pointer is
checked before, whatever the two lengths in the block are.

Of each number of four bytes only the first one is read, and the byte order is then
reversed, so that a length is rounded down to a multiple of 2 ^ 24. A picture is
decoded when both lengths are such multiples, which in practice are empty texts.
-/

namespace Mprt

/-- `album_name_t`. -/
structure AlbumName where
  artist : String
  albumArtist : String
  album : String
deriving DecidableEq

/-- `album_art_details`: contents by file name. -/
structure AlbumArtDetails where
  albumArtContents : AList (fun _ : List UInt8 => List UInt8)
  usageCount : Int

/-- `album_art`. -/
structure AlbumArt where
  albumArtContainer : AList (fun _ : AlbumName => AlbumArtDetails)

namespace AlbumArt

def addAlbumArt (store : AlbumArt) (albumName : AlbumName) (albumArtFilename : List UInt8)
    (albumArtConts : List UInt8) : AlbumArt :=
  let details := (store.albumArtContainer.lookup albumName).getD ⟨∅, 0⟩
  ⟨store.albumArtContainer.insert albumName { details with
    albumArtContents := details.albumArtContents.insert albumArtFilename albumArtConts }⟩

/-- Contents are stored under the one file name. -/
theorem addAlbumArt_filename {store : AlbumArt} {albumName : AlbumName}
    {first second contents : List UInt8}
    (same : store.addAlbumArt albumName first contents =
      store.addAlbumArt albumName second contents) : first = second := by
  have containers := congrArg (fun store => store.albumArtContainer.entries) same
  simp only [addAlbumArt, AList.entries_insert, List.cons.injEq, Sigma.mk.injEq, heq_eq_eq,
    true_and, and_true, AlbumArtDetails.mk.injEq] at containers
  have contents := congrArg AList.entries containers
  simp only [AList.entries_insert, List.cons.injEq, Sigma.mk.injEq] at contents
  exact contents.1.1

end AlbumArt

namespace FlacPicture

/-- A read outside of the vector, or an assertion of `RM` that fails; without the
assertion the unsigned size would wrap there. -/
inductive Fault where
  | outside
  | assertion
deriving DecidableEq

/-- The pointer, as its distance from the beginning of the vector, and the count of
the bytes left. -/
structure Cursor where
  pData : Nat
  size : Nat
deriving DecidableEq

namespace Cursor

/-- `RM`. -/
def rm (x : Nat) (cursor : Cursor) : Except Fault Cursor :=
  if x ≤ cursor.size then .ok ⟨cursor.pData + x, cursor.size - x⟩ else .error .assertion

/-- The byte at the pointer. -/
def deref (vector : List UInt8) (cursor : Cursor) : Except Fault UInt8 :=
  match vector[cursor.pData]? with
  | some byte => .ok byte
  | none => .error .outside

/-- The string of a length at the pointer. -/
def text (vector : List UInt8) (len : Nat) (cursor : Cursor) : Except Fault (List UInt8) :=
  if cursor.pData + len ≤ vector.length then .ok ((vector.drop cursor.pData).take len)
  else .error .outside

/-- A number is assigned from the byte at the pointer and converted, and the pointer
goes on by four. -/
def number (bigToNative : BitVec 32 → BitVec 32) (vector : List UInt8) (cursor : Cursor) :
    Except Fault (Nat × Cursor) := do
  let byte ← cursor.deref vector
  let further ← cursor.rm 4
  return ((bigToNative (BitVec.ofNat 32 byte.toNat)).toNat, further)

end Cursor

/-- The bytes of a string literal. -/
def ascii (literal : String) : List UInt8 := literal.toList.map (fun char => .ofNat char.toNat)

/-- The extension that is added to the description. -/
def extension (mimeText : List UInt8) : List UInt8 :=
  if mimeText = ascii "image/jpeg" then ascii ".jpg"
  else if mimeText = ascii "image/png" then ascii ".png"
  else []

/-- The result of `parse_flac_pict`, the vector and the album art afterwards. -/
structure Parsed where
  result : Bool
  albumArt : List UInt8
  store : AlbumArt

/-- `parse_flac_pict`, where the album name is that of the file. -/
def parseFlacPict (bigToNative : BitVec 32 → BitVec 32) (albumName : AlbumName)
    (store : AlbumArt) (albumArt : List UInt8) : Except Fault Parsed :=
  let refused : Except Fault Parsed := .ok ⟨false, albumArt, store⟩
  let start : Cursor := ⟨0, albumArt.length⟩
  if start.size < 8 then refused
  else do
    let (_, cursor) ← start.number bigToNative albumArt
    let (len, cursor) ← cursor.number bigToNative albumArt
    if cursor.size < len then refused
    else
      let mimeText ← cursor.text albumArt len
      let cursor ← cursor.rm len
      if cursor.size < 4 then refused
      else
        let (len, cursor) ← cursor.number bigToNative albumArt
        if cursor.size < len then refused
        else
          let desc ← cursor.text albumArt len
          let cursor ← cursor.rm len
          if cursor.size < 20 then refused
          else
            let cursor ← cursor.rm (4 * 4)
            let (len, cursor) ← cursor.number bigToNative albumArt
            if cursor.size < len then refused
            else
              let contents := albumArt.drop cursor.pData
              return ⟨true, contents,
                store.addAlbumArt albumName (desc ++ extension mimeText) contents⟩

/-- The number that is read at the beginning of some bytes. -/
def numberAt (bigToNative : BitVec 32 → BitVec 32) (bytes : List UInt8) : Nat :=
  (bigToNative (BitVec.ofNat 32 (bytes.headD 0).toNat)).toNat

/-- The MIME type, the description and the data of a block. -/
def pictureOf (bigToNative : BitVec 32 → BitVec 32) (bytes : List UInt8) :
    Option (List UInt8 × List UInt8 × List UInt8) :=
  let afterType := bytes.drop 4
  let mime := numberAt bigToNative afterType
  let afterMime := (afterType.drop 4).drop mime
  let desc := numberAt bigToNative afterMime
  let afterDesc := (afterMime.drop 4).drop desc
  let afterDims := afterDesc.drop (4 * 4)
  let data := numberAt bigToNative afterDims
  if 8 ≤ bytes.length ∧ mime ≤ (afterType.drop 4).length ∧ 4 ≤ afterMime.length ∧
      desc ≤ (afterMime.drop 4).length ∧ 20 ≤ afterDesc.length ∧
      data ≤ (afterDims.drop 4).length then
    some ((afterType.drop 4).take mime, (afterMime.drop 4).take desc, afterDims.drop 4)
  else none

/-! ## The steps of the pointer -/

/-- The pointer at a place of the vector, with the bytes behind it counted. -/
def place (vector : List UInt8) (pData : Nat) : Cursor := ⟨pData, (vector.drop pData).length⟩

section Steps

variable {vector : List UInt8} {pData : Nat}

/-- A step within the bytes left goes to its place. -/
theorem rm_place {x : Nat} (enough : x ≤ (vector.drop pData).length) :
    (place vector pData).rm x = .ok (place vector (pData + x)) := by
  rw [Cursor.rm, place, if_pos enough, place, List.length_drop, List.length_drop, Nat.sub_sub]

/-- A string of bytes that are left can be read. -/
theorem text_place {len : Nat} (positive : pData ≤ vector.length)
    (enough : len ≤ (vector.drop pData).length) :
    (place vector pData).text vector len = .ok ((vector.drop pData).take len) := by
  rw [List.length_drop] at enough
  have inside : (place vector pData).pData + len ≤ vector.length := by
    change pData + len ≤ vector.length
    omega
  rw [Cursor.text, if_pos inside]
  rfl

/-- A number can be read where four bytes are left. -/
theorem number_place (bigToNative : BitVec 32 → BitVec 32)
    (enough : 4 ≤ (vector.drop pData).length) :
    (place vector pData).number bigToNative vector =
      .ok (numberAt bigToNative (vector.drop pData), place vector (pData + 4)) := by
  have stepped := rm_place enough
  rw [List.length_drop] at enough
  have there : pData < vector.length := by omega
  have byte : (place vector pData).deref vector = .ok vector[pData] := by
    rw [Cursor.deref, place, List.getElem?_eq_getElem there]
  have first : (vector.drop pData).headD 0 = vector[pData] := by
    rw [List.drop_eq_getElem_cons there, List.headD_cons]
  rw [Cursor.number, byte, stepped, numberAt, first]
  rfl

end Steps

/-- A computation goes on with the value of the one before. -/
theorem ok_bind {α β : Type} (value : α) (next : α → Except Fault β) :
    (Except.ok value >>= next) = next value := rfl

/-- What `parse_flac_pict` does, without a fault. -/
theorem parseFlacPict_eq (bigToNative : BitVec 32 → BitVec 32) (albumName : AlbumName)
    (store : AlbumArt) (albumArt : List UInt8) :
    parseFlacPict bigToNative albumName store albumArt =
      .ok (match pictureOf bigToNative albumArt with
        | none => ⟨false, albumArt, store⟩
        | some (mimeText, desc, contents) =>
          ⟨true, contents, store.addAlbumArt albumName (desc ++ extension mimeText) contents⟩) := by
  have start : (⟨0, albumArt.length⟩ : Cursor) = place albumArt 0 := rfl
  have size : ∀ pData, (place albumArt pData).size = (albumArt.drop pData).length := fun _ => rfl
  obtain ⟨mime, mimeEq⟩ : ∃ mime, numberAt bigToNative (albumArt.drop 4) = mime := ⟨_, rfl⟩
  obtain ⟨desc, descEq⟩ : ∃ desc, numberAt bigToNative (albumArt.drop (4 + 4 + mime)) = desc :=
    ⟨_, rfl⟩
  obtain ⟨data, dataEq⟩ :
      ∃ data, numberAt bigToNative (albumArt.drop (4 + 4 + mime + 4 + desc + 4 * 4)) = data :=
    ⟨_, rfl⟩
  simp only [parseFlacPict, pictureOf, start, List.drop_drop, mimeEq, descEq, dataEq]
  by_cases header : 8 ≤ albumArt.length
  · have type : 4 ≤ (albumArt.drop 0).length := header.trans' (by decide)
    have mimeLen : 4 ≤ (albumArt.drop 4).length := by
      rw [List.length_drop]
      omega
    rw [if_neg (Nat.not_lt.mpr header), number_place bigToNative type, ok_bind, Nat.zero_add]
    simp only
    rw [number_place bigToNative mimeLen, ok_bind, mimeEq]
    simp only [size]
    by_cases mimeFits : mime ≤ (albumArt.drop (4 + 4)).length
    · rw [if_neg (Nat.not_lt.mpr mimeFits), text_place header mimeFits, ok_bind,
        rm_place mimeFits, ok_bind, size]
      by_cases descLen : 4 ≤ (albumArt.drop (4 + 4 + mime)).length
      · rw [if_neg (Nat.not_lt.mpr descLen), number_place bigToNative descLen, ok_bind, descEq]
        simp only [size]
        have inside : 4 + 4 + mime + 4 ≤ albumArt.length := by
          rw [List.length_drop] at descLen
          omega
        by_cases descFits : desc ≤ (albumArt.drop (4 + 4 + mime + 4)).length
        · rw [if_neg (Nat.not_lt.mpr descFits), text_place inside descFits, ok_bind,
            rm_place descFits, ok_bind, size]
          by_cases dims : 20 ≤ (albumArt.drop (4 + 4 + mime + 4 + desc)).length
          · have dimsFit : 4 * 4 ≤ (albumArt.drop (4 + 4 + mime + 4 + desc)).length :=
              dims.trans' (by decide)
            have dataLen : 4 ≤ (albumArt.drop (4 + 4 + mime + 4 + desc + 4 * 4)).length := by
              rw [List.length_drop] at dims ⊢
              omega
            rw [if_neg (Nat.not_lt.mpr dims), rm_place dimsFit, ok_bind,
              number_place bigToNative dataLen, ok_bind, dataEq]
            simp only [size]
            by_cases dataFits :
                data ≤ (albumArt.drop (4 + 4 + mime + 4 + desc + 4 * 4 + 4)).length
            · rw [if_neg (Nat.not_lt.mpr dataFits),
                if_pos ⟨header, mimeFits, descLen, descFits, dims, dataFits⟩]
              rfl
            · rw [if_pos (Nat.lt_of_not_le dataFits),
                if_neg (fun all => dataFits all.2.2.2.2.2)]
          · rw [if_pos (Nat.lt_of_not_le dims), if_neg (fun all => dims all.2.2.2.2.1)]
        · rw [if_pos (Nat.lt_of_not_le descFits), if_neg (fun all => descFits all.2.2.2.1)]
      · rw [if_pos (Nat.lt_of_not_le descLen), if_neg (fun all => descLen all.2.2.1)]
    · rw [if_pos (Nat.lt_of_not_le mimeFits), if_neg (fun all => mimeFits all.2.1)]
  · rw [if_pos (Nat.lt_of_not_le header), if_neg (fun all => header all.1)]

/-- For every vector no read leaves it, no assertion fails and the size does not wrap,
and a vector that is refused stays as it is, like the album art. -/
theorem parseFlacPict_safe (bigToNative : BitVec 32 → BitVec 32) (albumName : AlbumName)
    (store : AlbumArt) (albumArt : List UInt8) :
    ∃ parsed, parseFlacPict bigToNative albumName store albumArt = .ok parsed ∧
      (parsed.result = false → parsed.albumArt = albumArt ∧ parsed.store = store) := by
  rw [parseFlacPict_eq]
  cases pictureOf bigToNative albumArt with
  | none => exact ⟨_, rfl, fun _ => ⟨rfl, rfl⟩⟩
  | some picture => exact ⟨_, rfl, fun refused => by cases refused⟩

/-! ## Decoding what was encoded -/

/-- A picture with the fields of its block. -/
structure Picture where
  pictType : BitVec 32
  mime : List UInt8
  description : List UInt8
  width : BitVec 32
  height : BitVec 32
  depth : BitVec 32
  colors : BitVec 32
  data : List UInt8

/-- The four fields that are skipped. -/
def Picture.dimensions (picture : Picture) : List UInt8 :=
  [picture.width, picture.height, picture.depth, picture.colors].flatMap
    (fun field => ByteOrder.bigEndian 4 field.toNat)

/-- The METADATA_BLOCK_PICTURE of a picture. -/
def Picture.encode (picture : Picture) : List UInt8 :=
  ByteOrder.bigEndian 4 picture.pictType.toNat ++
    (ByteOrder.bigEndian 4 picture.mime.length ++ (picture.mime ++
      (ByteOrder.bigEndian 4 picture.description.length ++ (picture.description ++
        (picture.dimensions ++
          (ByteOrder.bigEndian 4 picture.data.length ++ picture.data))))))

/-- `big_to_native_inplace` on a little-endian machine: the bytes are reversed. -/
def bigToNativeInplace (value : BitVec 32) : BitVec 32 :=
  BitVec.ofNat 32 (ByteOrder.unsigned (ByteOrder.bigEndian 4 value.toNat))

/-- A number that is assigned from a byte has this byte first when it is reversed. -/
theorem bigToNativeInplace_byte (byte : UInt8) :
    (bigToNativeInplace (BitVec.ofNat 32 byte.toNat)).toNat = byte.toNat * 2 ^ 24 := by
  have below := byte.toNat_lt
  have value : (BitVec.ofNat 32 byte.toNat).toNat = byte.toNat := by
    rw [BitVec.toNat_ofNat]
    omega
  have high : byte.toNat / 256 = 0 := Nat.div_eq_of_lt below
  have bytes : ByteOrder.bigEndian 4 byte.toNat = [0, 0, 0, byte] := by
    rw [ByteOrder.bigEndian, ByteOrder.littleEndian, high, UInt8.ofNat_toNat]
    rfl
  rw [bigToNativeInplace, value, bytes, BitVec.toNat_ofNat]
  simp only [ByteOrder.unsigned, UInt8.toNat_zero]
  omega

/-- A number is read rounded down to a multiple of 2 ^ 24. -/
theorem numberAt_bigEndian {number : Nat} (below : number < 2 ^ 32) (rest : List UInt8) :
    numberAt bigToNativeInplace (ByteOrder.bigEndian 4 number ++ rest) =
      number / 2 ^ 24 * 2 ^ 24 := by
  rw [numberAt, ByteOrder.bigEndian_succ, List.cons_append, List.headD_cons,
    bigToNativeInplace_byte, UInt8.toNat_ofNat']
  omega

theorem numberAt_multiple (bytes : List UInt8) :
    2 ^ 24 ∣ numberAt bigToNativeInplace bytes := by
  rw [numberAt, bigToNativeInplace_byte]
  exact Nat.dvd_mul_left _ _

/-- A multiple of 2 ^ 24 is read as it is. -/
theorem numberAt_whole {number : Nat} (below : number < 2 ^ 32) (whole : 2 ^ 24 ∣ number)
    (rest : List UInt8) :
    numberAt bigToNativeInplace (ByteOrder.bigEndian 4 number ++ rest) = number := by
  rw [numberAt_bigEndian below, Nat.div_mul_cancel whole]

theorem dimensions_length (picture : Picture) : picture.dimensions.length = 16 := by
  simp [Picture.dimensions]

theorem encode_length (picture : Picture) : picture.encode.length =
    32 + picture.mime.length + picture.description.length + picture.data.length := by
  simp only [Picture.encode, List.length_append, ByteOrder.bigEndian_length, dimensions_length]
  omega

/-- The lengths of what has been read. -/
theorem pictureOf_lengths {bigToNative : BitVec 32 → BitVec 32}
    {bytes mimeText desc contents : List UInt8}
    (found : pictureOf bigToNative bytes = some (mimeText, desc, contents)) :
    mimeText.length = numberAt bigToNative (bytes.drop 4) ∧
      (∃ behind, desc.length = numberAt bigToNative (bytes.drop behind)) ∧
      bytes.length = 32 + mimeText.length + desc.length + contents.length := by
  simp only [pictureOf, List.drop_drop] at found
  split at found
  · rename_i guards
    obtain ⟨_, mimeFits, _, descFits, dims, _⟩ := guards
    simp only [Option.some.injEq, Prod.mk.injEq] at found
    obtain ⟨rfl, rfl, rfl⟩ := found
    have mimeLength := List.length_take_of_le mimeFits
    have descLength := List.length_take_of_le descFits
    refine ⟨mimeLength, ⟨_, descLength⟩, ?_⟩
    rw [mimeLength, descLength]
    rw [List.length_drop] at dims mimeFits descFits ⊢
    omega
  · cases found

theorem drop_number (number : Nat) (rest : List UInt8) :
    (ByteOrder.bigEndian 4 number ++ rest).drop 4 = rest :=
  List.drop_left' (ByteOrder.bigEndian_length 4 number)

theorem drop_dimensions (picture : Picture) (rest : List UInt8) :
    (picture.dimensions ++ rest).drop (4 * 4) = rest :=
  List.drop_left' (dimensions_length picture)

/-- A picture is read back where the lengths of both texts are multiples of 2 ^ 24. -/
theorem pictureOf_encode {picture : Picture} (mimeBelow : picture.mime.length < 2 ^ 32)
    (descBelow : picture.description.length < 2 ^ 32) (dataBelow : picture.data.length < 2 ^ 32)
    (mimeWhole : 2 ^ 24 ∣ picture.mime.length)
    (descWhole : 2 ^ 24 ∣ picture.description.length) :
    pictureOf bigToNativeInplace picture.encode =
      some (picture.mime, picture.description, picture.data) := by
  have length := encode_length picture
  have dataFits : picture.data.length / 2 ^ 24 * 2 ^ 24 ≤ picture.data.length :=
    Nat.div_mul_le_self _ _
  have afterType : picture.encode.drop 4 = ByteOrder.bigEndian 4 picture.mime.length ++
      (picture.mime ++ (ByteOrder.bigEndian 4 picture.description.length ++
        (picture.description ++ (picture.dimensions ++
          (ByteOrder.bigEndian 4 picture.data.length ++ picture.data))))) :=
    drop_number _ _
  simp only [pictureOf, afterType, numberAt_whole mimeBelow mimeWhole, drop_number,
    List.drop_left, numberAt_whole descBelow descWhole, drop_dimensions,
    numberAt_bigEndian dataBelow, List.take_left]
  apply if_pos
  simp only [List.length_append, ByteOrder.bigEndian_length, dimensions_length]
  omega

/-- The extension of a text, whose length is nine, ten or adds nothing. -/
theorem extension_length (mimeText : List UInt8) :
    (extension mimeText).length = 0 ∨
      (extension mimeText).length = 4 ∧ (mimeText.length = 9 ∨ mimeText.length = 10) := by
  rw [extension]
  split
  · rename_i jpeg
    exact Or.inr ⟨rfl, Or.inr (congrArg List.length jpeg)⟩
  · split
    · rename_i png
      exact Or.inr ⟨rfl, Or.inl (congrArg List.length png)⟩
    · exact Or.inl rfl

/-- The encoding of a picture is decoded and its data stored under its name exactly
when the lengths of both texts are multiples of 2 ^ 24. -/
theorem parseFlacPict_encode_iff (albumName : AlbumName) (store : AlbumArt) {picture : Picture}
    (mimeBelow : picture.mime.length < 2 ^ 32) (descBelow : picture.description.length < 2 ^ 32)
    (dataBelow : picture.data.length < 2 ^ 32) :
    parseFlacPict bigToNativeInplace albumName store picture.encode =
        .ok ⟨true, picture.data, store.addAlbumArt albumName
          (picture.description ++ extension picture.mime) picture.data⟩ ↔
      2 ^ 24 ∣ picture.mime.length ∧ 2 ^ 24 ∣ picture.description.length := by
  rw [parseFlacPict_eq]
  constructor
  · intro decoded
    cases found : pictureOf bigToNativeInplace picture.encode with
    | none => simp [found] at decoded
    | some block =>
      obtain ⟨mimeText, desc, contents⟩ := block
      simp only [found, Except.ok.injEq, Parsed.mk.injEq, true_and] at decoded
      obtain ⟨rfl, stored⟩ := decoded
      have name := congrArg List.length (AlbumArt.addAlbumArt_filename stored)
      obtain ⟨mimeLength, ⟨behind, descLength⟩, whole⟩ := pictureOf_lengths found
      have mimeMultiple := numberAt_multiple (picture.encode.drop 4)
      have descMultiple := numberAt_multiple (picture.encode.drop behind)
      rw [← mimeLength] at mimeMultiple
      rw [← descLength] at descMultiple
      rw [encode_length] at whole
      rw [List.length_append, List.length_append] at name
      have rounded : mimeText.length = picture.mime.length / 2 ^ 24 * 2 ^ 24 := by
        rw [mimeLength, Picture.encode, drop_number, numberAt_bigEndian mimeBelow]
      have read := extension_length mimeText
      have own := extension_length picture.mime
      omega
  · rintro ⟨mimeWhole, descWhole⟩
    rw [pictureOf_encode mimeBelow descBelow dataBelow mimeWhole descWhole]

/-- A front cover without texts. -/
def untitledCover : Picture := ⟨3#32, [], [], 1#32, 1#32, 24#32, 0#32, [1, 2, 3]⟩

theorem untitled_cover_decoded :
    parseFlacPict bigToNativeInplace ⟨"a", "b", "c"⟩ ⟨∅⟩ untitledCover.encode =
      .ok ⟨true, untitledCover.data, (⟨∅⟩ : AlbumArt).addAlbumArt ⟨"a", "b", "c"⟩
        (untitledCover.description ++ extension untitledCover.mime) untitledCover.data⟩ :=
  (parseFlacPict_encode_iff ⟨"a", "b", "c"⟩ ⟨∅⟩ (by decide) (by decide) (by decide)).mpr
    ⟨by decide, by decide⟩

/-- The same cover with its MIME type. -/
def pngCover : Picture := { untitledCover with mime := ascii "image/png" }

/-- The length of the MIME type is read as zero, and its first letter as the length of
the description, which the block does not have. -/
theorem png_cover_refused :
    pictureOf bigToNativeInplace pngCover.encode = none ∧
      parseFlacPict bigToNativeInplace ⟨"a", "b", "c"⟩ ⟨∅⟩ pngCover.encode =
        .ok ⟨false, pngCover.encode, ⟨∅⟩⟩ ∧
      parseFlacPict bigToNativeInplace ⟨"a", "b", "c"⟩ ⟨∅⟩ pngCover.encode ≠
        .ok ⟨true, pngCover.data, (⟨∅⟩ : AlbumArt).addAlbumArt ⟨"a", "b", "c"⟩
          (pngCover.description ++ extension pngCover.mime) pngCover.data⟩ := by
  have none : pictureOf bigToNativeInplace pngCover.encode = none := by decide
  refine ⟨none, ?_, ?_⟩
  · rw [parseFlacPict_eq, none]
  · rw [parseFlacPict_eq, none]
    intro same
    cases same

end FlacPicture

end Mprt
