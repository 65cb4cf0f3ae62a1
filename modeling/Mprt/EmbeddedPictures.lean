import Mprt.ConvertBase64
import Mprt.Decimal
import Mprt.FlacPicture
import Mprt.NamedValues

/-!
# The pictures of tags

Every kind of tag keeps its pictures in a list of its own. A reader makes a file name for
each picture and stores its data under the name in the entry of the album. A name that is
made twice replaces the data stored before.

The names have a number that differs between the pictures, or their type, or their
description. `read_asf` goes through its list, but looks at an iterator that is at the end
of another loop, which is no result here. No tag is large enough for the numbers of its
pictures to leave the range of a signed number.
-/

namespace Mprt

/-- `TagLib::String`, whose size is an unsigned number of 32 bits. -/
structure TagString where
  chars : List Char
  size_lt : chars.length < 2 ^ 32
deriving DecidableEq

namespace TagString

/-- The bytes of the string that is made of `toCString`, which ends before a NUL. -/
def bytes (text : TagString) : List UInt8 :=
  (text.chars.takeWhile (fun char => char ≠ '\x00')).flatMap String.utf8EncodeChar

/-- The bytes that are made of `toCString` without Unicode. -/
def latin1Bytes (text : TagString) : List UInt8 :=
  (text.chars.map (fun char => UInt8.ofNat char.toNat)).takeWhile (fun byte => byte ≠ 0)

end TagString

namespace AlbumArt

def contains (store : AlbumArt) (albumName : AlbumName) : Bool :=
  (store.albumArtContainer.lookup albumName).isSome

def getAlbumArt (store : AlbumArt) (albumName : AlbumName) :
    AList (fun _ : List UInt8 => List UInt8) :=
  (store.albumArtContainer.lookup albumName).elim ∅ (·.albumArtContents)

/-- Contents with their file names are stored one by one. -/
def addAlbumArts (store : AlbumArt) (albumName : AlbumName)
    (named : List (List UInt8 × List UInt8)) : AlbumArt :=
  named.foldl (fun store art => store.addAlbumArt albumName art.1 art.2) store

/-- Pictures are added one by one, the first of them first. -/
theorem addAlbumArts_cons (store : AlbumArt) (albumName : AlbumName)
    (art : List UInt8 × List UInt8) (named : List (List UInt8 × List UInt8)) :
    store.addAlbumArts albumName (art :: named) =
      (store.addAlbumArt albumName art.1 art.2).addAlbumArts albumName named := rfl

/-- An album without an entry has no contents. -/
theorem getAlbumArt_of_not_contains {store : AlbumArt} {albumName : AlbumName}
    (fresh : store.contains albumName = false) : store.getAlbumArt albumName = ∅ := by
  rw [contains, Option.isSome_eq_false_iff, Option.isNone_iff_eq_none] at fresh
  rw [getAlbumArt, fresh, Option.elim_none]

/-- The contents of the album are extended by those that are added. -/
theorem getAlbumArt_addAlbumArts (store : AlbumArt) (albumName : AlbumName)
    (named : List (List UInt8 × List UInt8)) :
    (store.addAlbumArts albumName named).getAlbumArt albumName =
      NamedValues.insertAll named (store.getAlbumArt albumName) := by
  induction named generalizing store with
  | nil => rfl
  | cons art rest inductionHypothesis =>
    have added : (store.addAlbumArt albumName art.1 art.2).getAlbumArt albumName =
        (store.getAlbumArt albumName).insert art.1 art.2 := by
      rw [getAlbumArt, addAlbumArt, AList.lookup_insert, Option.elim_some, getAlbumArt]
      cases store.albumArtContainer.lookup albumName <;> rfl
    rw [addAlbumArts_cons, inductionHypothesis, added, NamedValues.insertAll_cons]

end AlbumArt

namespace EmbeddedPictures

open FlacPicture (ascii)

/-- `TagLib::FLAC::Picture`. -/
structure FlacPict where
  type : Int
  mimeType : TagString
  data : List UInt8
deriving DecidableEq

/-- `TagLib::ID3v2::AttachedPictureFrame`. -/
structure AttachedPictureFrame where
  mimeType : TagString
  description : TagString
  picture : List UInt8
deriving DecidableEq

/-- `TagLib::ASF::Picture`. -/
structure AsfPicture where
  description : TagString
  mimeType : TagString
  picture : List UInt8
deriving DecidableEq

/-- The format of a `TagLib::MP4::CoverArt`. -/
inductive CoverArtFormat where
  | jpeg
  | png
  | bmp
  | gif
  | unknown
deriving DecidableEq

/-- `TagLib::MP4::CoverArt`. -/
structure CoverArt where
  format : CoverArtFormat
  data : List UInt8
deriving DecidableEq

/-! ## The readers -/

/-- `get_ext` with a separator of one character. -/
def getExt (urlName : List UInt8) (sepChar : UInt8) : List UInt8 :=
  if sepChar ∈ urlName then (urlName.reverse.takeWhile (fun byte => byte ≠ sepChar)).reverse
  else []

def getExtFromMime (mimeType : TagString) : List UInt8 := getExt mimeType.bytes 47

/-- The file name of a picture in `read_flac_pictures`. -/
def flacFilename (pict : FlacPict) : List UInt8 :=
  ascii "PICT_" ++ (Decimal.text pict.type ++ (ascii "_FLAC." ++ getExtFromMime pict.mimeType))

/-- `read_flac_pictures`: whether there is a picture, and the store. -/
def readFlacPictures (albumName : AlbumName) (pictList : List FlacPict) (store : AlbumArt) :
    Bool × AlbumArt :=
  (!pictList.isEmpty,
    pictList.foldl (fun store pict => store.addAlbumArt albumName (flacFilename pict) pict.data)
      store)

/-- An invalid picture. -/
def apicInvalid (apic : AttachedPictureFrame) : Bool :=
  apic.mimeType.bytes = ascii "PNG" || apic.description.bytes = [0xC2, 0x89] ++ ascii "PNG"

/-- The description of a picture, or its number when it has none. -/
def apicTitle (suffixNum : Nat) (apic : AttachedPictureFrame) : List UInt8 :=
  if apic.description.bytes ≠ [] then apic.description.bytes
  else ascii "pict" ++ Decimal.text suffixNum

/-- The file name of a picture in `read_ID3v2`. -/
def apicFilename (suffixNum : Nat) (apic : AttachedPictureFrame) : List UInt8 :=
  apicTitle suffixNum apic ++ (ascii "." ++ getExtFromMime apic.mimeType)

/-- The loop of `read_ID3v2` over its pictures. -/
def addApics (albumName : AlbumName) :
    List AttachedPictureFrame → Nat → AlbumArt → AlbumArt
  | [], _, store => store
  | apic :: rest, suffixNum, store =>
    if apicInvalid apic then addApics albumName rest suffixNum store
    else addApics albumName rest (suffixNum + 1)
      (store.addAlbumArt albumName (apicFilename suffixNum apic) apic.picture)

/-- The loop of `read_asf` over its pictures, with what the other iterator is at. Its number
is never increased. -/
def addAsfPictures (albumName : AlbumName) (iter : Option AsfPicture) :
    List AsfPicture → AlbumArt → Option AlbumArt
  | [], store => some store
  | _ :: rest, store =>
    iter.bind (fun asfPicture =>
      let filename :=
        if asfPicture.description.chars.length > 0 then asfPicture.description.bytes
        else ascii "pict0." ++ getExt asfPicture.mimeType.latin1Bytes 47
      addAsfPictures albumName iter rest
        (store.addAlbumArt albumName filename asfPicture.picture))

/-- The pictures of `read_asf`. Each loop over a list of attributes has left the iterator at
the end of the list. -/
def readAsfPictures (albumName : AlbumName) (pictures : List AsfPicture) (store : AlbumArt) :
    Option AlbumArt :=
  addAsfPictures albumName none pictures store

/-- The file name of a picture in `get_xiph_picts`. -/
def xiphFilename (idx : Nat) (mime : TagString) : List UInt8 :=
  ascii "cover_" ++ (Decimal.text idx ++ (ascii "." ++ getExtFromMime mime))

/-- The loop of `get_xiph_picts`. -/
def addXiphPicts (albumName : AlbumName) :
    List TagString → List TagString → Nat → AlbumArt → Option AlbumArt
  | mime :: mimeList, art :: artList, idx, store =>
    (ConvertBase64.convertBase64 (List.replicate art.chars.length 0)
      (ConvertBase64.toCString art.chars)).bind (fun albumArt =>
        addXiphPicts albumName mimeList artList (idx + 1)
          (store.addAlbumArt albumName (xiphFilename idx mime) albumArt))
  | _, _, _, store => some store

/-- `get_xiph_picts`. -/
def getXiphPicts (albumName : AlbumName) (mimeList artList : List TagString)
    (store : AlbumArt) : Option (Bool × AlbumArt) :=
  (addXiphPicts albumName mimeList artList 0 store).map (fun stored =>
    (decide (min mimeList.length artList.length > 0), stored))

/-- The extension for a format. -/
def coverArtExt : CoverArtFormat → List UInt8
  | .jpeg => ascii ".jpg"
  | .png => ascii ".png"
  | .bmp => ascii ".bmp"
  | .gif => ascii ".gif"
  | .unknown => ascii ".jpg"

/-- The file name of a picture in `read_mp4`. -/
def coverFilename (coverId : Nat) (cover : CoverArt) : List UInt8 :=
  ascii "cover_" ++ (Decimal.text coverId ++ coverArtExt cover.format)

/-- The loop of `read_mp4` over its pictures. Its number is increased twice. -/
def addCoverArts (albumName : AlbumName) : List CoverArt → Nat → AlbumArt → AlbumArt
  | [], _, store => store
  | cover :: rest, coverId, store =>
    addCoverArts albumName rest (coverId + 2)
      (store.addAlbumArt albumName (coverFilename coverId cover) cover.data)

/-! ## Pictures under their names -/

/-- The pictures with the names that are made for them. -/
def flacNamed (pictList : List FlacPict) : List (List UInt8 × List UInt8) :=
  pictList.map (fun pict => (flacFilename pict, pict.data))

/-- The pictures that are not invalid. -/
def accepted (apicList : List AttachedPictureFrame) : List AttachedPictureFrame :=
  apicList.filter (fun apic => !apicInvalid apic)

def apicNamed (suffixNum : Nat) (apicList : List AttachedPictureFrame) :
    List (List UInt8 × List UInt8) :=
  (accepted apicList).mapIdx (fun idx apic => (apicFilename (suffixNum + idx) apic, apic.picture))

/-- The data of a picture in a Xiph comment. -/
def artData (art : TagString) : List UInt8 :=
  Base64.decode (art.chars.flatMap String.utf8EncodeChar)

def xiphNamed (idx : Nat) (mimeList artList : List TagString) : List (List UInt8 × List UInt8) :=
  (mimeList.zip artList).mapIdx (fun further pict =>
    (xiphFilename (idx + further) pict.1, artData pict.2))

def coverNamed (coverId : Nat) (coverArtList : List CoverArt) : List (List UInt8 × List UInt8) :=
  coverArtList.mapIdx (fun idx cover => (coverFilename (coverId + 2 * idx) cover, cover.data))

/-- Every text of a tag is decoded. -/
theorem convertBase64_art (art : TagString) :
    ConvertBase64.convertBase64 (List.replicate art.chars.length 0)
      (ConvertBase64.toCString art.chars) = some (artData art) := by
  have small := art.size_lt
  apply ConvertBase64.convertBase64_text
  · rw [List.length_replicate]
    omega
  · exact List.length_replicate

section Loops

variable (albumName : AlbumName)

/-- The blocks of a file are added under names from their type and their kind. -/
theorem readFlacPictures_store (pictList : List FlacPict) (store : AlbumArt) :
    (readFlacPictures albumName pictList store).2 =
      store.addAlbumArts albumName (flacNamed pictList) := by
  rw [readFlacPictures, AlbumArt.addAlbumArts, flacNamed, List.foldl_map]

/-- Accepted frames get names with a running number, which does not count those that are not
accepted. -/
theorem addApics_eq (apicList : List AttachedPictureFrame) (suffixNum : Nat) (store : AlbumArt) :
    addApics albumName apicList suffixNum store =
      store.addAlbumArts albumName (apicNamed suffixNum apicList) := by
  induction apicList generalizing suffixNum store with
  | nil => rfl
  | cons apic rest inductionHypothesis =>
    rw [addApics, apicNamed, accepted]
    by_cases invalid : apicInvalid apic = true
    · rw [if_pos invalid, inductionHypothesis, List.filter_cons_of_neg (by simp [invalid])]
      rfl
    · rw [if_neg invalid, inductionHypothesis, List.filter_cons_of_pos (by simp [invalid]),
        List.mapIdx_cons, AlbumArt.addAlbumArts_cons]
      simp only [apicNamed, accepted, Nat.add_right_comm _ 1, Nat.add_assoc, Nat.add_zero]

/-- Cover art in a comment is paired with the kinds by its position, and each picture gets a name
with its number. -/
theorem addXiphPicts_eq (mimeList artList : List TagString) (idx : Nat) (store : AlbumArt) :
    addXiphPicts albumName mimeList artList idx store =
      some (store.addAlbumArts albumName (xiphNamed idx mimeList artList)) := by
  induction mimeList generalizing artList idx store with
  | nil =>
    rw [addXiphPicts]
    · rfl
    · intro _ _ _ _ empty
      cases empty
  | cons mime mimeList inductionHypothesis =>
    cases artList with
    | nil => rfl
    | cons art artList =>
      rw [addXiphPicts, convertBase64_art, Option.bind_some, inductionHypothesis, xiphNamed,
        xiphNamed, List.zip_cons_cons, List.mapIdx_cons, AlbumArt.addAlbumArts_cons]
      simp only [Nat.add_right_comm _ 1, Nat.add_assoc, Nat.add_zero]

/-- The pictures of an MP4 file are named by their number, of which every second one is used. -/
theorem addCoverArts_eq (coverArtList : List CoverArt) (coverId : Nat) (store : AlbumArt) :
    addCoverArts albumName coverArtList coverId store =
      store.addAlbumArts albumName (coverNamed coverId coverArtList) := by
  induction coverArtList generalizing coverId store with
  | nil => rfl
  | cons cover rest inductionHypothesis =>
    rw [addCoverArts, inductionHypothesis, coverNamed, coverNamed, List.mapIdx_cons,
      AlbumArt.addAlbumArts_cons]
    simp only [Nat.mul_add, Nat.mul_one, Nat.add_assoc, Nat.add_comm 2, Nat.mul_zero,
      Nat.add_zero]

end Loops

/-! ## Distinct names -/

/-- The number in a name is told from the text of the literal and what follows it. -/
theorem text_ascii_inj {first second : Int} {literal : String} {byte : UInt8}
    {literalRest rest other : List UInt8} (spelled : ascii literal = byte :: literalRest)
    (noSign : byte ≠ Decimal.minus) (noDigit : byte.toNat < 48 ∨ 57 < byte.toNat) :
    Decimal.text first ++ (ascii literal ++ rest) =
        Decimal.text second ++ (ascii literal ++ other) ↔
      first = second ∧ rest = other := by
  rw [spelled, List.cons_append, List.cons_append, Decimal.text_append_inj noSign noDigit,
    List.append_cancel_left_eq]

/-- The point before an extension. -/
theorem ascii_point : ascii "." = [46] := rfl

/-- The name of a FLAC picture has its type and its extension. -/
theorem flacFilename_inj {first second : FlacPict} :
    flacFilename first = flacFilename second ↔
      (first.type, getExtFromMime first.mimeType) =
        (second.type, getExtFromMime second.mimeType) := by
  have spelled : ascii "_FLAC." = 95 :: ascii "FLAC." := rfl
  rw [flacFilename, flacFilename, List.append_cancel_left_eq,
    text_ascii_inj spelled (by decide) (by decide), Prod.mk.injEq]

/-- Without descriptions the numbers of two pictures are in their names. -/
theorem apicFilename_number {number other : Nat} {first second : AttachedPictureFrame}
    (noFirst : first.description.bytes = []) (noSecond : second.description.bytes = [])
    (same : apicFilename number first = apicFilename other second) : number = other := by
  rw [apicFilename, apicFilename, apicTitle, apicTitle, if_neg (not_not.mpr noFirst),
    if_neg (not_not.mpr noSecond), List.append_assoc, List.append_assoc,
    List.append_cancel_left_eq, text_ascii_inj ascii_point (by decide) (by decide)] at same
  exact Int.ofNat_inj.mp same.1

/-- The number of a cover is in its name. -/
theorem xiphFilename_number {number other : Nat} {first second : TagString}
    (same : xiphFilename number first = xiphFilename other second) : number = other := by
  rw [xiphFilename, xiphFilename, List.append_cancel_left_eq,
    text_ascii_inj ascii_point (by decide) (by decide)] at same
  exact Int.ofNat_inj.mp same.1

/-- Such a name tells the number, since the decimal digits are read back from it. -/
theorem coverFilename_number {number other : Nat} {first second : CoverArt}
    (same : coverFilename number first = coverFilename other second) : number = other := by
  have spelled : ∀ format, ∃ rest, coverArtExt format = 46 :: rest := by
    intro format
    cases format <;> exact ⟨_, rfl⟩
  obtain ⟨firstRest, firstSpelled⟩ := spelled first.format
  obtain ⟨secondRest, secondSpelled⟩ := spelled second.format
  rw [coverFilename, coverFilename, List.append_cancel_left_eq, firstSpelled, secondSpelled,
    Decimal.text_append_inj (by decide) (by decide)] at same
  exact Int.ofNat_inj.mp same.1

/-! ## No picture is lost -/

/-- The embedded pictures of a tag, as the readers are given them. -/
inductive Embedded where
  | flac (pictList : List FlacPict)
  | id3v2 (apicList : List AttachedPictureFrame)
  | asf (pictures : List AsfPicture)
  | xiph (mimeList artList : List TagString)
  | mp4 (coverArtList : List CoverArt)

namespace Embedded

/-- The store after the pictures are read. -/
def read (albumName : AlbumName) (store : AlbumArt) : Embedded → Option AlbumArt
  | .flac pictList => some (readFlacPictures albumName pictList store).2
  | .id3v2 apicList => some (addApics albumName apicList 0 store)
  | .asf pictures => readAsfPictures albumName pictures store
  | .xiph mimeList artList => (getXiphPicts albumName mimeList artList store).map (·.2)
  | .mp4 coverArtList => some (addCoverArts albumName coverArtList 0 store)

/-- The data of the pictures, but for invalid ones. -/
def data : Embedded → List (List UInt8)
  | .flac pictList => pictList.map (·.data)
  | .id3v2 apicList => (accepted apicList).map (·.picture)
  | .asf pictures => pictures.map (·.picture)
  | .xiph _ artList => artList.map artData
  | .mp4 coverArtList => coverArtList.map (·.data)

end Embedded

/-- Reading ends, and the entry of the album holds the data of every picture under a name of
its own. -/
def NoneLost (embedded : Embedded) (albumName : AlbumName) (store : AlbumArt) : Prop :=
  ∃ after, embedded.read albumName store = some after ∧
    NamedValues.Kept embedded.data (after.getAlbumArt albumName)

/-- A text with the extension of a picture of ID3v2. -/
def withExt (text : List UInt8) (apic : AttachedPictureFrame) : List UInt8 :=
  text ++ 46 :: getExtFromMime apic.mimeType

/-- Two numbered pictures of ID3v2 with descriptions are told apart by these and their MIME
types, and one with a description is not described as another one without is numbered. -/
def ApicsApart (first second : AttachedPictureFrame × Nat) : Prop :=
  let description (numbered : AttachedPictureFrame × Nat) := numbered.1.description.bytes
  let number (numbered : AttachedPictureFrame × Nat) := ascii "pict" ++ Decimal.text numbered.2
  (description first ≠ [] → description second ≠ [] →
    withExt (description first) first.1 ≠ withExt (description second) second.1) ∧
  (description first ≠ [] → description second = [] →
    withExt (description first) first.1 ≠ withExt (number second) second.1) ∧
  (description first = [] → description second ≠ [] →
    withExt (number first) first.1 ≠ withExt (description second) second.1)

instance (first second : AttachedPictureFrame × Nat) : Decidable (ApicsApart first second) :=
  inferInstanceAs (Decidable (_ ∧ _ ∧ _))

/-- No two pictures of FLAC have a type and an extension in common, no two of ID3v2 are given
one name by their descriptions, no picture of ASF is there, and every picture of a Xiph comment
has a MIME type. -/
def KeepsAll : Embedded → Prop
  | .flac pictList =>
    (pictList.map (fun pict => (pict.type, getExtFromMime pict.mimeType))).Nodup
  | .id3v2 apicList => (accepted apicList).zipIdx.Pairwise ApicsApart
  | .asf pictures => pictures = []
  | .xiph mimeList artList => artList.length ≤ mimeList.length
  | .mp4 _ => True

instance : (embedded : Embedded) → Decidable (KeepsAll embedded)
  | .flac _ => inferInstanceAs (Decidable (List.Nodup _))
  | .id3v2 _ => inferInstanceAs (Decidable (List.Pairwise _ _))
  | .asf _ => inferInstanceAs (Decidable (_ = _))
  | .xiph _ _ => inferInstanceAs (Decidable (_ ≤ _))
  | .mp4 _ => inferInstanceAs (Decidable True)

/-- Two pictures are told apart exactly when their names are different. -/
theorem apicFilename_ne {first second : AttachedPictureFrame × Nat}
    (numbers : first.2 ≠ second.2) :
    apicFilename first.2 first.1 ≠ apicFilename second.2 second.1 ↔ ApicsApart first second := by
  by_cases noFirst : first.1.description.bytes = []
  · by_cases noSecond : second.1.description.bytes = []
    · have apart := fun same => numbers (apicFilename_number noFirst noSecond same)
      simpa [ApicsApart, noFirst, noSecond] using apart
    · simp [ApicsApart, noFirst, noSecond, apicFilename, apicTitle, withExt, ascii_point]
  · by_cases noSecond : second.1.description.bytes = []
    · simp [ApicsApart, noFirst, noSecond, apicFilename, apicTitle, withExt, ascii_point]
    · simp [ApicsApart, noFirst, noSecond, apicFilename, apicTitle, withExt, ascii_point]

/-- The names of the accepted frames differ exactly when the frames are apart in pairs, by what
their names are made of. -/
theorem apicNamed_nodup (apicList : List AttachedPictureFrame) :
    ((apicNamed 0 apicList).map Prod.fst).Nodup ↔
      (accepted apicList).zipIdx.Pairwise ApicsApart := by
  have names : (apicNamed 0 apicList).map Prod.fst =
      (accepted apicList).zipIdx.map (fun numbered => apicFilename numbered.2 numbered.1) := by
    rw [apicNamed, NamedValues.map_fst_mapIdx, List.mapIdx_eq_zipIdx_map]
    simp only [Nat.zero_add]
  rw [names, List.Nodup, List.pairwise_map, List.pairwise_iff_getElem, List.pairwise_iff_getElem]
  refine forall_congr' fun first => forall_congr' fun second => forall_congr' fun _ =>
    forall_congr' fun _ => forall_congr' fun before => apicFilename_ne ?_
  rw [List.getElem_zipIdx, List.getElem_zipIdx]
  exact fun same => absurd same (by omega)

/-- The names of blocks differ exactly when their types and kinds do. -/
theorem flacNamed_nodup (pictList : List FlacPict) :
    ((flacNamed pictList).map Prod.fst).Nodup ↔
      (pictList.map (fun pict => (pict.type, getExtFromMime pict.mimeType))).Nodup := by
  rw [flacNamed, List.map_map, List.Nodup, List.Nodup, List.pairwise_map, List.pairwise_map]
  simp only [Function.comp_apply, ne_eq, flacFilename_inj]

/-- Named pictures are all kept exactly when their names are distinct. -/
theorem kept_addAlbumArts {albumName : AlbumName} {store : AlbumArt}
    (fresh : store.contains albumName = false) (named : List (List UInt8 × List UInt8)) :
    NamedValues.Kept (named.map Prod.snd)
        ((store.addAlbumArts albumName named).getAlbumArt albumName) ↔
      (named.map Prod.fst).Nodup := by
  rw [AlbumArt.getAlbumArt_addAlbumArts, AlbumArt.getAlbumArt_of_not_contains fresh,
    NamedValues.kept_insertAll_iff]

section Readers

variable {albumName : AlbumName} {store : AlbumArt} (fresh : store.contains albumName = false)
include fresh

/-- No picture of a FLAC file is lost exactly when the names of its blocks differ. -/
theorem noneLost_flac (pictList : List FlacPict) :
    NoneLost (.flac pictList) albumName store ↔ KeepsAll (.flac pictList) := by
  have data : (Embedded.flac pictList).data = (flacNamed pictList).map Prod.snd := by
    rw [Embedded.data, flacNamed, List.map_map]
    rfl
  rw [NoneLost, KeepsAll, data, Embedded.read, readFlacPictures_store, ← flacNamed_nodup]
  simp only [Option.some.injEq, exists_eq_left', kept_addAlbumArts fresh]

/-- The same for the accepted frames of an ID3v2 tag, whose names may agree by their descriptions
and their kinds. -/
theorem noneLost_id3v2 (apicList : List AttachedPictureFrame) :
    NoneLost (.id3v2 apicList) albumName store ↔ KeepsAll (.id3v2 apicList) := by
  have data : (Embedded.id3v2 apicList).data = (apicNamed 0 apicList).map Prod.snd := by
    rw [Embedded.data, apicNamed, NamedValues.map_snd_mapIdx]
  rw [NoneLost, KeepsAll, data, Embedded.read, addApics_eq, ← apicNamed_nodup]
  simp only [Option.some.injEq, exists_eq_left', kept_addAlbumArts fresh]

/-- A picture of ASF is read at the end of a list, and none is lost only when there is none. -/
theorem noneLost_asf (pictures : List AsfPicture) :
    NoneLost (.asf pictures) albumName store ↔ KeepsAll (.asf pictures) := by
  rw [NoneLost, KeepsAll, Embedded.read]
  cases pictures with
  | nil =>
    refine iff_of_true ⟨store, rfl, ?_⟩ rfl
    exact (kept_addAlbumArts fresh []).mpr List.nodup_nil
  | cons picture rest => simp [readAsfPictures, addAsfPictures]

/-- A picture of a comment without a MIME type is left out, so that none is lost exactly when
there are as many types as pictures. -/
theorem noneLost_xiph (mimeList artList : List TagString) :
    NoneLost (.xiph mimeList artList) albumName store ↔ KeepsAll (.xiph mimeList artList) := by
  have read : (Embedded.xiph mimeList artList).read albumName store =
      some (store.addAlbumArts albumName (xiphNamed 0 mimeList artList)) := by
    rw [Embedded.read, getXiphPicts, addXiphPicts_eq, Option.map_some, Option.map_some]
  have distinct : ((xiphNamed 0 mimeList artList).map Prod.fst).Nodup := by
    rw [xiphNamed, NamedValues.map_fst_mapIdx]
    refine NamedValues.nodup_mapIdx (fun same => ?_) _
    have numbers := xiphFilename_number same
    omega
  have stored : (xiphNamed 0 mimeList artList).map Prod.snd =
      ((mimeList.zip artList).map Prod.snd).map artData := by
    rw [xiphNamed, NamedValues.map_snd_mapIdx, List.map_map]
    rfl
  have kept := (kept_addAlbumArts fresh _).mpr distinct
  rw [NoneLost, KeepsAll, read]
  simp only [Option.some.injEq, exists_eq_left', Embedded.data]
  constructor
  · intro all
    have lengths := kept.length_eq.symm.trans all.length_eq
    rw [stored] at lengths
    simp only [List.length_map, List.length_zip] at lengths
    omega
  · intro enough
    rw [stored, List.map_snd_zip enough] at kept
    exact kept

/-- In an MP4 file no picture is lost, without a condition: the numbers differ. -/
theorem noneLost_mp4 (coverArtList : List CoverArt) :
    NoneLost (.mp4 coverArtList) albumName store := by
  have data : (Embedded.mp4 coverArtList).data = (coverNamed 0 coverArtList).map Prod.snd := by
    rw [Embedded.data, coverNamed, NamedValues.map_snd_mapIdx]
  have distinct : ((coverNamed 0 coverArtList).map Prod.fst).Nodup := by
    rw [coverNamed, NamedValues.map_fst_mapIdx]
    refine NamedValues.nodup_mapIdx (fun same => ?_) _
    have numbers := coverFilename_number same
    omega
  refine ⟨_, rfl, ?_⟩
  rw [addCoverArts_eq, data, kept_addAlbumArts fresh]
  exact distinct

end Readers

/-- When the album has no entry before, every embedded picture is in it afterwards exactly when
no name is made twice, no ASF picture is there, and no picture of a Xiph comment is without a
MIME type. -/
theorem noneLost_iff (embedded : Embedded) (albumName : AlbumName) (store : AlbumArt)
    (fresh : store.contains albumName = false) :
    NoneLost embedded albumName store ↔ KeepsAll embedded := by
  cases embedded with
  | flac pictList => exact noneLost_flac fresh pictList
  | id3v2 apicList => exact noneLost_id3v2 fresh apicList
  | asf pictures => exact noneLost_asf fresh pictures
  | xiph mimeList artList => exact noneLost_xiph fresh mimeList artList
  | mp4 coverArtList => exact iff_of_true (noneLost_mp4 fresh coverArtList) trivial

/-- The MIME type of a JPEG picture. -/
def jpeg : TagString := ⟨"image/jpeg".toList, by decide⟩

/-- A front cover and a back cover are both kept. -/
theorem front_and_back_kept :
    NoneLost (.flac [⟨3, jpeg, [1]⟩, ⟨4, jpeg, [2]⟩]) ⟨"", "", ""⟩ ⟨∅⟩ :=
  (noneLost_iff _ _ _ rfl).mpr (by decide)

/-- Of two front covers the first one is lost. -/
theorem first_front_cover_lost :
    ¬ NoneLost (.flac [⟨3, jpeg, [1]⟩, ⟨3, jpeg, [2]⟩]) ⟨"", "", ""⟩ ⟨∅⟩ := by
  rw [noneLost_flac rfl]
  decide

end EmbeddedPictures

end Mprt
