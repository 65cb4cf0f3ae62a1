import Mathlib.Data.List.TakeWhile
import Mprt.TagLibParser

/-!
# Numbers of tracks and discs

A tag for the number of a track or a disc may have the total behind a slash. Three branches
of the readers cut it with `get_couple_numbers` and write the two parts to the columns of a
number and of its total. The branch for TRCK writes each part to its column. The branches for
TPOS and TRACKNUMBER write the number to both.

Tags with one column share a value, and the configuration decides which tags these are. So a
branch also fails where it gives the number and the total one column.
-/

namespace Mprt

open FlacPicture (ascii)

namespace TagParser

/-- `init_tag_col`: native tags with their column, as the configuration has them. -/
def initTagCol (tree : List (List (List UInt8) × List UInt8)) :
    AList (fun _ : List UInt8 => List UInt8) :=
  tree.foldl (fun columns entry =>
    entry.1.foldl (fun columns nativeTag => columns.insert (toUpperCopy nativeTag) entry.2)
      columns) ∅

@[simp] theorem setTagVal_getTagCol (tagName tagVal nativeTag : List UInt8)
    (parser : TagParser) :
    (parser.setTagVal tagName tagVal).getTagCol nativeTag = parser.getTagCol nativeTag := rfl

/-- A value is read back under every tag of its column, and the others keep theirs. -/
theorem getTagVal_setTagVal (tagName tagVal other : List UInt8) (parser : TagParser) :
    (parser.setTagVal tagName tagVal).getTagVal other =
      if parser.getTagCol other = parser.getTagCol tagName then tagVal
      else parser.getTagVal other := by
  rw [getTagVal, setTagVal_getTagCol, setTagVal]
  simp only
  split
  · rename_i same
    rw [same, AList.lookup_insert, Option.getD_some]
  · rename_i different
    rw [AList.lookup_insert_ne different, getTagVal]

/-- A tag is read back as it was set. -/
theorem getTagVal_setTagVal_self (tagName tagVal : List UInt8) (parser : TagParser) :
    (parser.setTagVal tagName tagVal).getTagVal tagName = tagVal := by
  rw [getTagVal_setTagVal, if_pos rfl]

end TagParser

namespace TagLibParser

/-! ## Cutting a value -/

/-- The text of a value before its first slash, or all of it. -/
def beforeSlash (value : List UInt8) : List UInt8 := value.takeWhile (fun byte => byte ≠ 47)

/-- The text of a value after its first slash, empty where there is none. -/
def afterSlash (value : List UInt8) : List UInt8 :=
  (value.dropWhile (fun byte => byte ≠ 47)).drop 1

theorem not_slash {text : List UInt8} (whole : 47 ∉ text) :
    ∀ byte ∈ text, decide (byte ≠ 47) = true := by
  intro byte member
  apply decide_eq_true
  rintro rfl
  exact whole member

theorem slash_whole {value : List UInt8} (whole : 47 ∉ value) :
    beforeSlash value = value ∧ afterSlash value = [] := by
  have passed := not_slash whole
  rw [beforeSlash, afterSlash, List.takeWhile_eq_self_iff.mpr passed,
    List.dropWhile_eq_nil_iff.mpr passed]
  exact ⟨rfl, rfl⟩

theorem slash_cut {first : List UInt8} (new : 47 ∉ first) (second : List UInt8) :
    beforeSlash (first ++ 47 :: second) = first ∧
      afterSlash (first ++ 47 :: second) = second := by
  have passed := not_slash new
  rw [beforeSlash, afterSlash, List.takeWhile_append_of_pos passed,
    List.dropWhile_append_of_pos passed, List.takeWhile_cons_of_neg (by simp),
    List.dropWhile_cons_of_neg (by simp), List.append_nil]
  exact ⟨rfl, rfl⟩

/-- The readers are given the two texts. -/
theorem getCoupleNumbers_eq (value : List UInt8) :
    getCoupleNumbers value = (beforeSlash value, afterSlash value) := by
  by_cases slash : 47 ∈ value
  · rw [getCoupleNumbers, if_pos slash]
    rfl
  · obtain ⟨before, after⟩ := slash_whole slash
    rw [getCoupleNumbers, if_neg slash, before, after]

/-- What a reader has to make of a value: the number before the first slash, or all of the
value, and the total behind it. -/
structure NumbersRead (numberTag totalTag value : List UInt8) (after : TagParser) : Prop where
  whole : 47 ∉ value → after.getTagVal numberTag = value
  cut : ∀ first second, 47 ∉ first → value = first ++ 47 :: second →
    after.getTagVal numberTag = first ∧ after.getTagVal totalTag = second

/-- The number and the total are the two texts. -/
theorem numbersRead_iff_slash {numberTag totalTag value : List UInt8} {after : TagParser} :
    NumbersRead numberTag totalTag value after ↔
      after.getTagVal numberTag = beforeSlash value ∧
        (47 ∈ value → after.getTagVal totalTag = afterSlash value) := by
  by_cases slash : 47 ∈ value
  · obtain ⟨first, second, rfl, new⟩ := List.eq_append_cons_of_mem slash
    obtain ⟨before, behind⟩ := slash_cut new second
    rw [before, behind]
    constructor
    · intro read
      have parts := read.cut first second new rfl
      exact ⟨parts.1, fun _ => parts.2⟩
    · rintro ⟨number, total⟩
      refine ⟨fun whole => absurd slash whole, fun other rest otherNew same => ?_⟩
      obtain ⟨rfl, rfl⟩ := (Decimal.append_cons_inj new otherNew).mp same
      exact ⟨number, total slash⟩
  · rw [(slash_whole slash).1]
    constructor
    · exact fun read => ⟨read.whole slash, fun there => absurd there slash⟩
    · rintro ⟨number, _⟩
      refine ⟨fun _ => number, fun first second _ same => absurd ?_ slash⟩
      rw [same]
      exact List.mem_append_right _ List.mem_cons_self

/-! ## The three branches -/

/-- The key of the field for the track number. -/
def trackNumberKey : TagString := ⟨"TRACKNUMBER".toList, by decide⟩

/-- How a value arrives, with all that its branch does not look at: the pictures that were
collected, the class of the frame and the frames behind it, or the lists for covers and the
values behind it. -/
inductive Arrival where
  | trck (readPict : Bool) (apicList : List EmbeddedPictures.AttachedPictureFrame)
      (frameClass : FrameClass) (further : List Frame)
  | tpos (readPict : Bool) (apicList : List EmbeddedPictures.AttachedPictureFrame)
      (frameClass : FrameClass) (further : List Frame)
  | trackNumber (mimeList artList further : List TagString)

namespace Arrival

/-- The parser after a value has been read in the loop of its reader. -/
def read (bigToNative : BitVec 32 → BitVec 32) (value : TagString) (parser : TagParser) :
    Arrival → Option TagParser
  | .trck readPict apicList frameClass further =>
    some (readFrameList readPict (parser, apicList)
      (ascii "TRCK", ⟨frameClass, value⟩ :: further)).1
  | .tpos readPict apicList frameClass further =>
    some (readFrameList readPict (parser, apicList)
      (ascii "TPOS", ⟨frameClass, value⟩ :: further)).1
  | .trackNumber mimeList artList further =>
    (readField bigToNative ⟨parser, mimeList, artList⟩ (trackNumberKey, value :: further)).map
      (·.parser)

/-- The tag that the number is set under. -/
def numberTag : Arrival → List UInt8
  | .trck .. => ascii "Track"
  | .tpos .. => ascii "DisckNo"
  | .trackNumber .. => ascii "TRACKNUMBER"

/-- The tag that the total is set under. -/
def totalTag : Arrival → List UInt8
  | .trck .. => ascii "TRACKTOTAL"
  | .tpos .. => ascii "DiscTotal"
  | .trackNumber .. => ascii "TRACKTOTAL"

end Arrival

section Branches

variable (bigToNative : BitVec 32 → BitVec 32) (value : TagString) (parser : TagParser)

theorem read_trck (readPict : Bool) (apicList : List EmbeddedPictures.AttachedPictureFrame)
    (frameClass : FrameClass) (further : List Frame) :
    (Arrival.trck readPict apicList frameClass further).read bigToNative value parser =
      some ((parser.setTagVal (ascii "Track") (getCoupleNumbers value.bytes).1).setTagVal
        (ascii "TRACKTOTAL") (getCoupleNumbers value.bytes).2) := rfl

theorem read_tpos (readPict : Bool) (apicList : List EmbeddedPictures.AttachedPictureFrame)
    (frameClass : FrameClass) (further : List Frame) :
    (Arrival.tpos readPict apicList frameClass further).read bigToNative value parser =
      some ((parser.setTagVal (ascii "DisckNo") (getCoupleNumbers value.bytes).1).setTagVal
        (ascii "DiscTotal") (getCoupleNumbers value.bytes).1) := rfl

theorem read_trackNumber (mimeList artList further : List TagString) :
    (Arrival.trackNumber mimeList artList further).read bigToNative value parser =
      some (readTrackNumber value parser) := rfl

end Branches

/-- TRCK has two columns, or one text for both. TPOS has one text for both, or no total. For
TRACKNUMBER a total that is not empty is the same text; an empty one is in its column before,
or the number is empty too where both have one column. -/
def Agrees (parser : TagParser) (value : List UInt8) : Arrival → Prop
  | .trck .. =>
    parser.getTagCol (ascii "Track") ≠ parser.getTagCol (ascii "TRACKTOTAL") ∨
      beforeSlash value = afterSlash value
  | .tpos .. => 47 ∈ value → beforeSlash value = afterSlash value
  | .trackNumber .. =>
    47 ∈ value →
      if afterSlash value ≠ [] then
        beforeSlash value = afterSlash value
      else if parser.getTagCol (ascii "TRACKTOTAL") = parser.getTagCol (ascii "TRACKNUMBER") then
        beforeSlash value = []
      else parser.getTagVal (ascii "TRACKTOTAL") = []

instance (parser : TagParser) (value : List UInt8) :
    (arrival : Arrival) → Decidable (Agrees parser value arrival)
  | .trck .. => inferInstanceAs (Decidable (_ ∨ _))
  | .tpos .. => inferInstanceAs (Decidable (_ → _))
  | .trackNumber .. => inferInstanceAs (Decidable (_ → ite _ _ _))

section Pairs

variable {parser : TagParser} {numberTag totalTag : List UInt8} (number total : List UInt8)

/-- The total is set behind the number, in another column or in its place. -/
theorem getTagVal_pair : ((parser.setTagVal numberTag number).setTagVal totalTag total).getTagVal
    numberTag = if parser.getTagCol numberTag = parser.getTagCol totalTag then total
      else number := by
  rw [TagParser.getTagVal_setTagVal, TagParser.setTagVal_getTagCol,
    TagParser.setTagVal_getTagCol, TagParser.getTagVal_setTagVal_self]

/-- A number that is set for the total too is read under both tags. -/
theorem getTagVal_twice :
    ((parser.setTagVal numberTag number).setTagVal totalTag number).getTagVal numberTag =
      number := by
  rw [getTagVal_pair, ite_self]

end Pairs

section Values

variable {value : List UInt8} (parser : TagParser)

/-- TRCK sets each part under its tag. -/
theorem trck_read_iff :
    NumbersRead (ascii "Track") (ascii "TRACKTOTAL") value
        ((parser.setTagVal (ascii "Track") (getCoupleNumbers value).1).setTagVal
          (ascii "TRACKTOTAL") (getCoupleNumbers value).2) ↔
      parser.getTagCol (ascii "Track") ≠ parser.getTagCol (ascii "TRACKTOTAL") ∨
        beforeSlash value = afterSlash value := by
  rw [getCoupleNumbers_eq, numbersRead_iff_slash, getTagVal_pair,
    TagParser.getTagVal_setTagVal_self]
  by_cases same : parser.getTagCol (ascii "Track") = parser.getTagCol (ascii "TRACKTOTAL")
  · rw [if_pos same]
    constructor
    · exact fun read => Or.inr read.1.symm
    · rintro (different | equal)
      · exact absurd same different
      · exact ⟨equal.symm, fun _ => rfl⟩
  · rw [if_neg same]
    exact iff_of_true ⟨rfl, fun _ => rfl⟩ (Or.inl same)

/-- TPOS sets the number for the total too. -/
theorem tpos_read_iff :
    NumbersRead (ascii "DisckNo") (ascii "DiscTotal") value
        ((parser.setTagVal (ascii "DisckNo") (getCoupleNumbers value).1).setTagVal
          (ascii "DiscTotal") (getCoupleNumbers value).1) ↔
      (47 ∈ value → beforeSlash value = afterSlash value) := by
  rw [getCoupleNumbers_eq, numbersRead_iff_slash, getTagVal_twice,
    TagParser.getTagVal_setTagVal_self]
  exact and_iff_right rfl

/-- TRACKNUMBER sets the number for a total that is not empty, and leaves the column of an empty
one as it is. -/
theorem trackNumber_read_iff (text : TagString) (mimeList artList further : List TagString) :
    NumbersRead (ascii "TRACKNUMBER") (ascii "TRACKTOTAL") text.bytes
        (readTrackNumber text parser) ↔
      Agrees parser text.bytes (.trackNumber mimeList artList further) := by
  rw [numbersRead_iff_slash, readTrackNumber, getCoupleNumbers_eq, Agrees]
  by_cases total : afterSlash text.bytes ≠ []
  · rw [if_pos total, if_pos total, getTagVal_twice, TagParser.getTagVal_setTagVal_self]
    exact and_iff_right rfl
  · have empty := not_not.mp total
    rw [if_neg total, if_neg total, TagParser.getTagVal_setTagVal_self,
      TagParser.getTagVal_setTagVal, empty]
    split
    · exact and_iff_right rfl
    · exact and_iff_right rfl

end Values

/-- For every value and every parser with any columns and any tags before, the number and the
total are read as they are cut exactly when the two parts are the same, or their branch sets
each under its own tag and the tags have two columns, or it need not set the total. -/
theorem numbersRead_iff (bigToNative : BitVec 32 → BitVec 32) (arrival : Arrival)
    (value : TagString) (parser : TagParser) :
    (∃ after, arrival.read bigToNative value parser = some after ∧
        NumbersRead arrival.numberTag arrival.totalTag value.bytes after) ↔
      Agrees parser value.bytes arrival := by
  cases arrival with
  | trck readPict apicList frameClass further =>
    rw [read_trck]
    simp only [Option.some.injEq, exists_eq_left']
    exact trck_read_iff parser
  | tpos readPict apicList frameClass further =>
    rw [read_tpos]
    simp only [Option.some.injEq, exists_eq_left']
    exact tpos_read_iff parser
  | trackNumber mimeList artList further =>
    rw [read_trackNumber]
    simp only [Option.some.injEq, exists_eq_left']
    exact trackNumber_read_iff parser value mimeList artList further

/-! ## The configured columns -/

/-- The entries of the configuration for numbers and totals. -/
def numberEntries : List (List (List UInt8) × List UInt8) :=
  [([ascii "DisckNo", ascii "DISCNUMBER", ascii "DISC NUMBER", ascii "DISC NO"], ascii "Disc No"),
    ([ascii "DiscTotal", ascii "TotalDiscs"], ascii "Disc Total"),
    ([ascii "TRACKTOTAL", ascii "TRACKTOTALS", ascii "TOTALTRACK", ascii "TOTALTRACKS"],
      ascii "Total Tracks"),
    ([ascii "MUSICBRAINZ_TRACKID", ascii "Track", ascii "UFID", ascii "TRACKNUMBER",
      ascii "----:com.apple.iTunes:MusicBrainz Track Id"], ascii "Track No")]

/-- Both tags for the number of a track have one column, and no number has that of a total. -/
theorem configured_columns {parser : TagParser}
    (configured : parser.tagToColumn = TagParser.initTagCol numberEntries) :
    parser.getTagCol (ascii "Track") = ascii "Track No" ∧
      parser.getTagCol (ascii "TRACKNUMBER") = ascii "Track No" ∧
      parser.getTagCol (ascii "TRACKTOTAL") = ascii "Total Tracks" ∧
      parser.getTagCol (ascii "DisckNo") = ascii "Disc No" ∧
      parser.getTagCol (ascii "DiscTotal") = ascii "Disc Total" := by
  simp only [TagParser.getTagCol, configured]
  decide

/-- With these columns TRCK is read as it is cut, whatever was read before. -/
theorem configured_trck {parser : TagParser}
    (configured : parser.tagToColumn = TagParser.initTagCol numberEntries)
    (bigToNative : BitVec 32 → BitVec 32) (value : TagString) (readPict : Bool)
    (apicList : List EmbeddedPictures.AttachedPictureFrame) (frameClass : FrameClass)
    (further : List Frame) :
    ∃ after, (Arrival.trck readPict apicList frameClass further).read bigToNative value parser =
        some after ∧ NumbersRead (ascii "Track") (ascii "TRACKTOTAL") value.bytes after := by
  obtain ⟨number, _, total, _⟩ := configured_columns configured
  refine ⟨_, read_trck bigToNative value parser readPict apicList frameClass further, ?_⟩
  rw [trck_read_iff, number, total]
  exact Or.inl (by decide)

/-- The first disc of two. -/
def firstOfTwo : TagString := ⟨['1', '/', '2'], by decide⟩

/-- With these columns and no tags before, the total of the discs is read as one. -/
theorem disc_total_wrong :
    ¬ ∃ after, (Arrival.tpos true [] .other []).read FlacPicture.bigToNativeInplace firstOfTwo
        ⟨[], ∅, TagParser.initTagCol numberEntries, ⟨∅⟩⟩ = some after ∧
      NumbersRead (ascii "DisckNo") (ascii "DiscTotal") firstOfTwo.bytes after := by
  rw [read_tpos]
  simp only [Option.some.injEq, exists_eq_left']
  rw [tpos_read_iff]
  decide

end TagLibParser

end Mprt
