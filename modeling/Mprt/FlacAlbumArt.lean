import Mprt.TagLibParser

/-!
# Album art of FLAC files

A FLAC file has pictures in an ID3v2 tag, in a Xiph comment and in blocks of its own. Each
reader says whether it has read the pictures, and the readers after it are then left out. But
the reader of ID3v2 says so whether there was a picture or not, and the reader of the comment
that is left out says that there was none.

Tags are read in the same way with any pictures, and the pictures go to the entry of the album
that the tags name by then. An entry is only made for a picture.
-/

namespace Mprt

open FlacPicture (ascii)
open EmbeddedPictures

namespace AlbumArt

/-- An album has an entry with a picture. -/
def HasPicture (store : AlbumArt) (albumName : AlbumName) : Prop :=
  (store.getAlbumArt albumName).keys ≠ []

/-- If an album has an entry, there is a picture in it. -/
def Filled (albumName : AlbumName) (store : AlbumArt) : Prop :=
  store.contains albumName = true → store.HasPicture albumName

/-- An album with a picture has an entry. -/
theorem contains_of_hasPicture {store : AlbumArt} {albumName : AlbumName}
    (found : store.HasPicture albumName) : store.contains albumName = true := by
  by_contra missing
  rw [Bool.not_eq_true] at missing
  exact found (by rw [getAlbumArt_of_not_contains missing]; rfl)

/-- A picture that is added makes an entry for its album and leaves the other entries. -/
theorem contains_addAlbumArt {store : AlbumArt} {added albumName : AlbumName}
    {filename contents : List UInt8} :
    (store.addAlbumArt added filename contents).contains albumName = true ↔
      added = albumName ∨ store.contains albumName = true := by
  rw [contains, contains, addAlbumArt]
  by_cases same : albumName = added
  · rw [same, AList.lookup_insert]
    simp
  · rw [AList.lookup_insert_ne same]
    exact (or_iff_right (fun equal => same equal.symm)).symm

/-- Pictures that are added make an entry for their album, if there are any. -/
theorem contains_addAlbumArts {store : AlbumArt} {added albumName : AlbumName}
    {named : List (List UInt8 × List UInt8)} :
    (store.addAlbumArts added named).contains albumName = true ↔
      (added = albumName ∧ named ≠ []) ∨ store.contains albumName = true := by
  induction named generalizing store with
  | nil => simp [addAlbumArts]
  | cons art rest inductionHypothesis =>
    rw [addAlbumArts_cons, inductionHypothesis, contains_addAlbumArt]
    simp only [ne_eq, reduceCtorEq, not_false_eq_true, and_true]
    tauto

/-- An entry is made with a picture in it, so that an album never has an empty one. -/
theorem Filled.addAlbumArts {store : AlbumArt} {albumName : AlbumName}
    (filled : Filled albumName store) (added : AlbumName)
    (named : List (List UInt8 × List UInt8)) :
    Filled albumName (store.addAlbumArts added named) := by
  induction named generalizing store with
  | nil => exact filled
  | cons art rest inductionHypothesis =>
    rw [addAlbumArts_cons]
    apply inductionHypothesis
    intro entry
    rw [HasPicture, getAlbumArt, addAlbumArt]
    by_cases same : albumName = added
    · rw [same, AList.lookup_insert, Option.elim_some, AList.keys_insert]
      exact List.cons_ne_nil _ _
    · rw [AList.lookup_insert_ne same]
      apply filled
      rcases contains_addAlbumArt.mp entry with equal | before
      · exact absurd equal.symm same
      · exact before

end AlbumArt

namespace TagParser

/-- The parser with other album art. -/
def withArt (albumArt : AlbumArt) (parser : TagParser) : TagParser :=
  { parser with albumArt := albumArt }

@[simp] theorem withArt_albumArt (albumArt : AlbumArt) (parser : TagParser) :
    (parser.withArt albumArt).albumArt = albumArt := rfl

/-- A parser with some album art is not changed by giving it this art. -/
theorem withArt_of_eq {albumArt : AlbumArt} {parser : TagParser}
    (same : parser.albumArt = albumArt) : parser.withArt albumArt = parser := by
  rw [← same]
  rfl

@[simp] theorem withArt_getAlbumConcatName (albumArt : AlbumArt) (parser : TagParser) :
    (parser.withArt albumArt).getAlbumConcatName = parser.getAlbumConcatName := rfl

@[simp] theorem setTagVal_withArt (tagName tagVal : List UInt8) (albumArt : AlbumArt)
    (parser : TagParser) : (parser.withArt albumArt).setTagVal tagName tagVal =
      (parser.setTagVal tagName tagVal).withArt albumArt := rfl

@[simp] theorem setTagVal_albumArt (tagName tagVal : List UInt8) (parser : TagParser) :
    (parser.setTagVal tagName tagVal).albumArt = parser.albumArt := rfl

@[simp] theorem setTagStrList_withArt (tagName : List UInt8) (tagStrList : List TagString)
    (albumArt : AlbumArt) (parser : TagParser) :
    (parser.withArt albumArt).setTagStrList tagName tagStrList =
      (parser.setTagStrList tagName tagStrList).withArt albumArt := by
  cases tagStrList <;> rfl

@[simp] theorem setTagStrList_albumArt (tagName : List UInt8) (tagStrList : List TagString)
    (parser : TagParser) :
    (parser.setTagStrList tagName tagStrList).albumArt = parser.albumArt := by
  cases tagStrList <;> rfl

end TagParser

namespace TagLibParser

/-- What is read one by one without album art leaves it as it is. -/
theorem foldl_albumArt {α : Type} {read : TagParser → α → TagParser}
    (keeps : ∀ parser element, (read parser element).albumArt = parser.albumArt)
    (elements : List α) (parser : TagParser) :
    (elements.foldl read parser).albumArt = parser.albumArt := by
  induction elements generalizing parser with
  | nil => rfl
  | cons element rest inductionHypothesis =>
    rw [List.foldl_cons, inductionHypothesis, keeps]

/-- The properties of the audio stream are tags, and so no album art. -/
theorem readAudioProperties_albumArt (audioProps : Option AudioProperties) (parser : TagParser) :
    (readAudioProperties audioProps parser).albumArt = parser.albumArt := by
  cases audioProps <;> rfl

/-- Neither are the properties of the file, which are read as tags by their names. -/
theorem readProperties_albumArt (properties : List (TagString × List TagString))
    (parser : TagParser) : (readProperties properties parser).albumArt = parser.albumArt := by
  apply foldl_albumArt
  intro parser entry
  exact parser.setTagStrList_albumArt entry.1.bytes entry.2

/-- A unique file identifier is read as a tag. -/
theorem readUfid_albumArt (parser : TagParser) (frame : Frame) :
    (readUfid parser frame).albumArt = parser.albumArt := by
  rw [readUfid]
  split
  · split <;> rfl
  · rfl

/-- And so is a text frame of the user. -/
theorem readTxxx_albumArt (parser : TagParser) (frame : Frame) :
    (readTxxx parser frame).albumArt = parser.albumArt := by
  rw [readTxxx]
  split <;> rfl

/-- The frames of ID3v2 are read without album art. -/
theorem readFrameListMap_albumArt (readPict : Bool) (frameListMap : List (List UInt8 × List Frame))
    (parser : TagParser) :
    (readFrameListMap readPict frameListMap parser).1.albumArt = parser.albumArt := by
  have step : ∀ state entry,
      (readFrameList readPict state entry).1.albumArt = state.1.albumArt := by
    intro state entry
    rw [readFrameList]
    cases entry.2 with
    | nil => rfl
    | cons frame rest =>
      simp only
      split
      · exact foldl_albumArt readUfid_albumArt _ _
      · split
        · exact foldl_albumArt readTxxx_albumArt _ _
        · split
          · rfl
          · split
            · rfl
            · split
              · rfl
              · apply foldl_albumArt
                exact fun _ _ => rfl
  have all : ∀ (lists : List (List UInt8 × List Frame)) state,
      (lists.foldl (readFrameList readPict) state).1.albumArt = state.1.albumArt := by
    intro lists
    induction lists with
    | nil => exact fun _ => rfl
    | cons entry rest inductionHypothesis =>
      intro state
      rw [List.foldl_cons, inductionHypothesis, step]
  exact all frameListMap (parser, [])

/-! ## The fields of a Xiph comment -/

section Fields

variable (bigToNative : BitVec 32 → BitVec 32)

/-- The picture of a METADATA_BLOCK_PICTURE, when it is decoded. -/
def blockNamed (art : TagString) : Option (List UInt8 × List UInt8) :=
  (FlacPicture.pictureOf bigToNative (artData art)).map (fun (mimeText, desc, contents) =>
    (desc ++ FlacPicture.extension mimeText, contents))

/-- The pictures that are decoded are added to the album. -/
theorem parseBlocks_eq (artList : List TagString) (parser : TagParser) :
    parseBlocks bigToNative artList parser =
      some (parser.withArt (parser.albumArt.addAlbumArts parser.getAlbumConcatName
        (artList.filterMap (blockNamed bigToNative)))) := by
  induction artList generalizing parser with
  | nil => rfl
  | cons art rest inductionHypothesis =>
    rw [parseBlocks, convertBase64_art, Option.bind_some, FlacPicture.parseFlacPict_eq,
      List.filterMap_cons]
    simp only [inductionHypothesis, blockNamed]
    cases FlacPicture.pictureOf bigToNative (artData art) <;> rfl

/-- A field with values under a name. -/
def IsField (name : String) (field : TagString × List TagString) : Prop :=
  field.1.bytes = ascii name ∧ field.2 ≠ []

instance (name : String) (field : TagString × List TagString) : Decidable (IsField name field) :=
  inferInstanceAs (Decidable (_ ∧ _))

/-- The parser after a field of a Xiph comment, but for album art. -/
def fieldTags (parser : TagParser) (field : TagString × List TagString) : TagParser :=
  match field.2 with
  | [] => parser
  | first :: _ =>
    if field.1.bytes = ascii "TRACKNUMBER" then readTrackNumber first parser
    else if field.1.bytes = ascii "COVERARTMIME" ∨ field.1.bytes = ascii "COVERART" ∨
        field.1.bytes = ascii "METADATA_BLOCK_PICTURE" then parser
    else parser.setTagStrList field.1.bytes field.2

/-- The album art after a field of a Xiph comment. -/
def fieldArt (parser : TagParser) (field : TagString × List TagString) : AlbumArt :=
  if IsField "METADATA_BLOCK_PICTURE" field then
    parser.albumArt.addAlbumArts parser.getAlbumConcatName
      (field.2.filterMap (blockNamed bigToNative))
  else parser.albumArt

/-- A track number is read in the same way whatever album art there is. -/
theorem readTrackNumber_withArt (text : TagString) (albumArt : AlbumArt) (parser : TagParser) :
    readTrackNumber text (parser.withArt albumArt) =
      (readTrackNumber text parser).withArt albumArt := by
  rw [readTrackNumber, readTrackNumber]
  split <;> rfl

/-- It adds two tags at most, and no picture. -/
theorem readTrackNumber_albumArt (text : TagString) (parser : TagParser) :
    (readTrackNumber text parser).albumArt = parser.albumArt := by
  rw [readTrackNumber]
  split <;> rfl

/-- The names of the fields with a branch of their own are different. -/
theorem names_ne : ascii "COVERARTMIME" ≠ ascii "TRACKNUMBER" ∧
    ascii "COVERART" ≠ ascii "TRACKNUMBER" ∧ ascii "COVERART" ≠ ascii "COVERARTMIME" ∧
    ascii "METADATA_BLOCK_PICTURE" ≠ ascii "TRACKNUMBER" ∧
    ascii "METADATA_BLOCK_PICTURE" ≠ ascii "COVERARTMIME" ∧
    ascii "METADATA_BLOCK_PICTURE" ≠ ascii "COVERART" := by
  decide

/-- What a field does to the tags, the album art and the two lists. -/
theorem readField_eq (state : XiphLoop) (field : TagString × List TagString) :
    readField bigToNative state field = some {
      parser := (fieldTags state.parser field).withArt (fieldArt bigToNative state.parser field)
      mimeList := if IsField "COVERARTMIME" field then field.2 else state.mimeList
      artList := if IsField "COVERART" field ∨ IsField "METADATA_BLOCK_PICTURE" field then field.2
        else state.artList } := by
  obtain ⟨mimeNumber, artNumber, artMime, blockNumber, blockMime, blockArt⟩ := names_ne
  obtain ⟨key, values⟩ := field
  cases values with
  | nil =>
    simp [readField, fieldTags, fieldArt, IsField, TagParser.withArt_of_eq]
  | cons first rest =>
    simp only [readField, fieldTags, fieldArt, IsField, parseBlocks_eq, ne_eq, reduceCtorEq,
      not_false_eq_true, and_true]
    generalize key.bytes = name
    by_cases number : name = ascii "TRACKNUMBER"
    · have kept := TagParser.withArt_of_eq (readTrackNumber_albumArt first state.parser)
      simp [number, mimeNumber.symm, artNumber.symm, blockNumber.symm, kept]
    · by_cases mime : name = ascii "COVERARTMIME"
      · simp [mime, mimeNumber, artMime.symm, blockMime.symm, TagParser.withArt_of_eq]
      · by_cases art : name = ascii "COVERART"
        · simp [art, artNumber, artMime, blockArt.symm, TagParser.withArt_of_eq]
        · by_cases block : name = ascii "METADATA_BLOCK_PICTURE"
          · simp [block, blockNumber, blockMime, blockArt]
          · simp [number, mime, art, block, TagParser.withArt_of_eq]

@[simp] theorem fieldTags_withArt (albumArt : AlbumArt) (parser : TagParser)
    (field : TagString × List TagString) :
    fieldTags (parser.withArt albumArt) field = (fieldTags parser field).withArt albumArt := by
  rw [fieldTags, fieldTags]
  cases field.2 with
  | nil => rfl
  | cons first rest =>
    simp only [readTrackNumber_withArt, TagParser.setTagStrList_withArt]
    split
    · rfl
    · split <;> rfl

/-- The tags of all fields can be read first, and the album art be given afterwards. -/
theorem foldl_fieldTags_withArt (albumArt : AlbumArt) (fields : List (TagString × List TagString))
    (parser : TagParser) :
    fields.foldl fieldTags (parser.withArt albumArt) =
      (fields.foldl fieldTags parser).withArt albumArt := by
  induction fields generalizing parser with
  | nil => rfl
  | cons field rest inductionHypothesis =>
    rw [List.foldl_cons, List.foldl_cons, fieldTags_withArt, inductionHypothesis]

/-- A METADATA_BLOCK_PICTURE is decoded where the tags before it name the album. -/
def BlockStored (albumName : AlbumName) :
    List (TagString × List TagString) → TagParser → Prop
  | [], _ => False
  | field :: rest, parser =>
    (IsField "METADATA_BLOCK_PICTURE" field ∧ parser.getAlbumConcatName = albumName ∧
      ∃ art ∈ field.2, (FlacPicture.pictureOf bigToNative (artData art)).isSome = true) ∨
    BlockStored albumName rest (fieldTags parser field)

/-- Whether a block is stored for an album depends on the fields before it, and not on the art
that is there. -/
theorem blockStored_withArt {albumName : AlbumName} {fields : List (TagString × List TagString)}
    (albumArt : AlbumArt) {parser : TagParser} :
    BlockStored bigToNative albumName fields (parser.withArt albumArt) ↔
      BlockStored bigToNative albumName fields parser := by
  induction fields generalizing parser with
  | nil => exact Iff.rfl
  | cons field rest inductionHypothesis =>
    rw [BlockStored, BlockStored, fieldTags_withArt, inductionHypothesis,
      TagParser.withArt_getAlbumConcatName]

/-- A field makes an entry for the album when it has a block that is decoded. -/
theorem contains_fieldArt {albumName : AlbumName} {parser : TagParser}
    {field : TagString × List TagString} :
    (fieldArt bigToNative parser field).contains albumName = true ↔
      (IsField "METADATA_BLOCK_PICTURE" field ∧ parser.getAlbumConcatName = albumName ∧
        ∃ art ∈ field.2, (FlacPicture.pictureOf bigToNative (artData art)).isSome = true) ∨
      parser.albumArt.contains albumName = true := by
  have decoded : field.2.filterMap (blockNamed bigToNative) ≠ [] ↔
      ∃ art ∈ field.2, (FlacPicture.pictureOf bigToNative (artData art)).isSome = true := by
    rw [ne_eq, List.filterMap_eq_nil_iff]
    simp only [not_forall, exists_prop, blockNamed, Option.map_eq_none_iff,
      Option.isSome_iff_ne_none, ne_eq]
  rw [fieldArt]
  split
  · rename_i block
    rw [AlbumArt.contains_addAlbumArts, decoded]
    simp only [block, true_and]
  · rename_i block
    simp only [block, false_and, false_or]

/-- A field adds no entry without a picture in it. -/
theorem filled_fieldArt {albumName : AlbumName} {parser : TagParser}
    (filled : AlbumArt.Filled albumName parser.albumArt) (field : TagString × List TagString) :
    AlbumArt.Filled albumName (fieldArt bigToNative parser field) := by
  rw [fieldArt]
  split
  · exact filled.addAlbumArts _ _
  · exact filled

/-- What the loop over fields has read. -/
structure FieldsRead (albumName : AlbumName) (fields : List (TagString × List TagString))
    (before after : XiphLoop) : Prop where
  tags : after.parser.getAlbumConcatName =
    (fields.foldl fieldTags before.parser).getAlbumConcatName
  contains : after.parser.albumArt.contains albumName = true ↔
    BlockStored bigToNative albumName fields before.parser ∨
      before.parser.albumArt.contains albumName = true
  filled : AlbumArt.Filled albumName before.parser.albumArt →
    AlbumArt.Filled albumName after.parser.albumArt
  mimes : after.mimeList ≠ [] ↔
    (∃ field ∈ fields, IsField "COVERARTMIME" field) ∨ before.mimeList ≠ []
  arts : after.artList ≠ [] ↔
    (∃ field ∈ fields, IsField "COVERART" field ∨ IsField "METADATA_BLOCK_PICTURE" field) ∨
      before.artList ≠ []

/-- A list that fields with a name replace is empty only without such fields. -/
theorem replaced_ne_nil {replaces : Prop} [Decidable replaces] {values before : List TagString}
    (nonempty : replaces → values ≠ []) :
    (if replaces then values else before) ≠ [] ↔ replaces ∨ before ≠ [] := by
  split
  · rename_i here
    exact iff_of_true (nonempty here) (Or.inl here)
  · rename_i elsewhere
    exact (or_iff_right elsewhere).symm

/-- Every comment is read. The induction is on the fields; what was read before them does not
matter to how they are read. -/
theorem readFields (albumName : AlbumName) (fields : List (TagString × List TagString))
    (before : XiphLoop) :
    ∃ after, fields.foldlM (readField bigToNative) before = some after ∧
      FieldsRead bigToNative albumName fields before after := by
  induction fields generalizing before with
  | nil =>
    refine ⟨before, rfl, rfl, ?_, id, ?_, ?_⟩
    · rw [BlockStored, false_or]
    · simp
    · simp
  | cons field rest inductionHypothesis =>
    obtain ⟨after, ran, read⟩ := inductionHypothesis {
      parser := (fieldTags before.parser field).withArt (fieldArt bigToNative before.parser field)
      mimeList := if IsField "COVERARTMIME" field then field.2 else before.mimeList
      artList := if IsField "COVERART" field ∨ IsField "METADATA_BLOCK_PICTURE" field then field.2
        else before.artList }
    refine ⟨after, ?_, ?_, ?_, ?_, ?_, ?_⟩
    · rw [List.foldlM_cons, readField_eq]
      exact ran
    · rw [read.tags, foldl_fieldTags_withArt, List.foldl_cons]
      rfl
    · rw [read.contains, blockStored_withArt, TagParser.withArt_albumArt, contains_fieldArt,
        BlockStored]
      exact or_left_comm.trans or_assoc.symm
    · exact fun filled => read.filled (filled_fieldArt bigToNative filled field)
    · rw [read.mimes, replaced_ne_nil (fun here => here.2), List.exists_mem_cons_iff]
      exact or_left_comm.trans or_assoc.symm
    · rw [read.arts, replaced_ne_nil (fun here => here.elim (·.2) (·.2)),
        List.exists_mem_cons_iff]
      exact or_left_comm.trans or_assoc.symm

end Fields

/-! ## The pictures of a Xiph comment -/

/-- The pictures of a comment that are read, and whether there was one. -/
theorem readXiphPicts_eq (albumName : AlbumName) (mimeList artList : List TagString)
    (pictureList : List FlacPict) (store : AlbumArt) :
    ∃ named, readXiphPicts albumName mimeList artList pictureList store =
        some (decide (named ≠ []), store.addAlbumArts albumName named) ∧
      (named ≠ [] ↔ (mimeList ≠ [] ∧ artList ≠ []) ∨ pictureList ≠ []) := by
  by_cases covers : mimeList ≠ [] ∧ artList ≠ []
  · have shared : 0 < min mimeList.length artList.length :=
      Nat.lt_min.mpr ⟨List.length_pos_iff.mpr covers.1, List.length_pos_iff.mpr covers.2⟩
    have nonempty : xiphNamed 0 mimeList artList ≠ [] := by
      apply List.ne_nil_of_length_pos
      rw [xiphNamed, List.length_mapIdx, List.length_zip]
      exact shared
    refine ⟨xiphNamed 0 mimeList artList, ?_, iff_of_true nonempty (Or.inl covers)⟩
    rw [readXiphPicts, if_pos covers, getXiphPicts, addXiphPicts_eq, decide_eq_true nonempty]
    simp only [Option.map_some, gt_iff_lt, decide_eq_true shared, if_true]
  · refine ⟨flacNamed pictureList, ?_, by simp [flacNamed, covers]⟩
    have present : (readFlacPictures albumName pictureList store).1 =
        decide (flacNamed pictureList ≠ []) := by
      cases pictureList <;> rfl
    rw [readXiphPicts, if_neg covers, ← present, ← readFlacPictures_store]
    rfl

section Comment

variable (bigToNative : BitVec 32 → BitVec 32)

/-- A comment has covers with MIME types, or pictures of FLAC. -/
def Readable (comment : XiphComment) : Prop :=
  ((∃ field ∈ comment.fieldListMap, IsField "COVERARTMIME" field) ∧
    ∃ field ∈ comment.fieldListMap,
      IsField "COVERART" field ∨ IsField "METADATA_BLOCK_PICTURE" field) ∨
  comment.pictureList ≠ []

/-- A comment is read to the end. The album has an entry afterwards when it had one, when a
block was decoded for it, or when the pictures were to be read and there is one. -/
theorem readXiph_spec {comment : XiphComment} (readPict overrideAlbumArtContainer : Bool)
    {parser : TagParser} {albumName : AlbumName}
    (name : (comment.fieldListMap.foldl fieldTags parser).getAlbumConcatName = albumName) :
    ∃ ifReadPict after,
      readXiph bigToNative comment readPict overrideAlbumArtContainer parser =
        some (ifReadPict, after) ∧
      after.getAlbumConcatName = albumName ∧
      (AlbumArt.Filled albumName parser.albumArt → AlbumArt.Filled albumName after.albumArt) ∧
      (ifReadPict = true → after.albumArt.contains albumName = true) ∧
      (after.albumArt.contains albumName = true ↔ (readPict = true ∧ Readable comment) ∨
        BlockStored bigToNative albumName comment.fieldListMap parser ∨
        parser.albumArt.contains albumName = true) := by
  obtain ⟨state, ran, read⟩ := readFields bigToNative albumName comment.fieldListMap
    ⟨parser, [], []⟩
  have named : state.parser.getAlbumConcatName = albumName := read.tags.trans name
  rw [readXiph, ran, Option.bind_some]
  simp only [named]
  have mimes : state.mimeList ≠ [] ↔
      ∃ field ∈ comment.fieldListMap, IsField "COVERARTMIME" field := by
    simp [read.mimes]
  have arts : state.artList ≠ [] ↔ ∃ field ∈ comment.fieldListMap,
      IsField "COVERART" field ∨ IsField "METADATA_BLOCK_PICTURE" field := by
    simp [read.arts]
  by_cases reads : readPict = true ∧ (state.parser.albumArt.contains albumName = false ∨
      overrideAlbumArtContainer = true)
  · obtain ⟨pictures, stored, present⟩ := readXiphPicts_eq albumName state.mimeList
      state.artList comment.pictureList state.parser.albumArt
    rw [mimes, arts] at present
    rw [if_pos reads, stored]
    refine ⟨_, _, rfl, named, fun filled => (read.filled filled).addAlbumArts _ _, ?_, ?_⟩
    · intro present
      exact AlbumArt.contains_addAlbumArts.mpr (Or.inl ⟨rfl, of_decide_eq_true present⟩)
    · rw [AlbumArt.contains_addAlbumArts, present, read.contains]
      simp only [reads.1, true_and, Readable]
  · rw [if_neg reads]
    refine ⟨_, _, rfl, named, read.filled, ?_, ?_⟩
    · intro present
      cases present
    · refine ⟨fun entry => Or.inr (read.contains.mp entry), fun found => ?_⟩
      rcases found with ⟨may, _⟩ | before
      · -- The pictures are left out because the album has an entry.
        by_contra missing
        exact reads ⟨may, Or.inl (Bool.not_eq_true _ ▸ missing)⟩
      · exact read.contains.mpr before

end Comment

/-! ## The three sources -/

/-- The parser and the pictures after an ID3v2 tag, but for album art. -/
def id3v2Read (file : FlacFile) (parser : TagParser) : TagParser × List AttachedPictureFrame :=
  match file.id3v2Tag with
  | none => (parser, [])
  | some tag => readFrameListMap true tag parser

/-- There is an ID3v2 tag, and it names an album without an entry. -/
def Claims (file : FlacFile) (parser : TagParser) : Prop :=
  file.id3v2Tag.isSome = true ∧
    parser.albumArt.contains (id3v2Read file parser).1.getAlbumConcatName = false

/-- The name of the album after all tags. -/
def albumNamed (file : FlacFile) (parser : TagParser) : AlbumName :=
  ((file.xiphComment.elim [] (·.fieldListMap)).foldl fieldTags
    (id3v2Read file parser).1).getAlbumConcatName

/-- The ID3v2 tag keeps the pictures after it out when it names an album without an entry. -/
theorem readFlacId3v2_spec (file : FlacFile) (parser : TagParser) (albumName : AlbumName) :
    ∃ mayReadPict albumArt,
      readFlacId3v2 file parser = (mayReadPict, (id3v2Read file parser).1.withArt albumArt) ∧
      (mayReadPict = true ↔ ¬ Claims file parser) ∧
      (AlbumArt.Filled albumName parser.albumArt → AlbumArt.Filled albumName albumArt) ∧
      (albumArt.contains albumName = true ↔
        (Claims file parser ∧ (id3v2Read file parser).1.getAlbumConcatName = albumName ∧
          accepted (id3v2Read file parser).2 ≠ []) ∨
        parser.albumArt.contains albumName = true) := by
  rw [Claims, id3v2Read, readFlacId3v2]
  cases file.id3v2Tag with
  | none => exact ⟨true, parser.albumArt, rfl, by simp, id, by simp⟩
  | some tag =>
    have art := readFrameListMap_albumArt true tag parser
    simp only [readId3v2, art]
    by_cases entry : parser.albumArt.contains
        (readFrameListMap true tag parser).1.getAlbumConcatName = true
    · rw [if_neg (by simp [entry])]
      refine ⟨true, parser.albumArt, ?_, by simp [entry], id, by simp [entry]⟩
      rw [TagParser.withArt_of_eq art]
      rfl
    · rw [Bool.not_eq_true] at entry
      rw [if_pos ⟨trivial, Or.inl entry⟩]
      refine ⟨false, _, rfl, by simp [entry], ?_, ?_⟩
      · rw [addApics_eq]
        exact fun filled => filled.addAlbumArts _ _
      · have nonempty : apicNamed 0 (readFrameListMap true tag parser).2 ≠ [] ↔
            accepted (readFrameListMap true tag parser).2 ≠ [] := by
          rw [apicNamed, ne_eq, List.mapIdx_eq_nil_iff]
        rw [addApics_eq, AlbumArt.contains_addAlbumArts, nonempty]
        simp [entry]

/-- The blocks of the file make an entry when they may be read and there is one. -/
theorem readFlacBlocks_spec (file : FlacFile) (mayReadPict : Bool) {parser : TagParser}
    {albumName : AlbumName} (name : parser.getAlbumConcatName = albumName) :
    (readFlacBlocks file mayReadPict parser).getAlbumConcatName = albumName ∧
      (AlbumArt.Filled albumName parser.albumArt →
        AlbumArt.Filled albumName (readFlacBlocks file mayReadPict parser).albumArt) ∧
      ((readFlacBlocks file mayReadPict parser).albumArt.contains albumName = true ↔
        (mayReadPict = true ∧ file.pictureList ≠ []) ∨
          parser.albumArt.contains albumName = true) := by
  rw [readFlacBlocks]
  simp only [name]
  by_cases reads : mayReadPict = true ∧ parser.albumArt.contains albumName = false
  · have pictures : flacNamed file.pictureList ≠ [] ↔ file.pictureList ≠ [] := by
      simp [flacNamed]
    rw [if_pos reads, readFlacPictures_store]
    refine ⟨name, fun filled => filled.addAlbumArts _ _, ?_⟩
    rw [AlbumArt.contains_addAlbumArts, pictures]
    simp [reads.1]
  · rw [if_neg reads]
    refine ⟨name, id, fun entry => Or.inr entry, fun found => ?_⟩
    rcases found with ⟨may, _⟩ | entry
    · by_contra missing
      exact reads ⟨may, Bool.not_eq_true _ ▸ missing⟩
    · exact entry

section File

variable (bigToNative : BitVec 32 → BitVec 32)

/-- A picture is stored for the album. The ID3v2 tag that names an album without an entry keeps
it for its own pictures: those of the comment are left out, and those of the file too when
there is no comment. -/
def Stored (file : FlacFile) (parser : TagParser) : Prop :=
  (Claims file parser ∧
    (id3v2Read file parser).1.getAlbumConcatName = albumNamed file parser ∧
    accepted (id3v2Read file parser).2 ≠ []) ∨
  (∃ comment, file.xiphComment = some comment ∧
    ((¬ Claims file parser ∧ Readable comment) ∨
      BlockStored bigToNative (albumNamed file parser) comment.fieldListMap
        (id3v2Read file parser).1 ∨
      file.pictureList ≠ [])) ∨
  (¬ Claims file parser ∧ file.pictureList ≠ [])

/-- The sources in the order of the stages and in the order of the condition. -/
theorem sources_arranged {claims own readable decoded blocks before : Prop} :
    blocks ∨ (¬ claims ∧ readable) ∨ decoded ∨ (claims ∧ own) ∨ before ↔
      ((claims ∧ own) ∨ ((¬ claims ∧ readable) ∨ decoded ∨ blocks) ∨ (¬ claims ∧ blocks)) ∨
        before := by
  tauto

/-- The branch of FLAC files ends, and the album has an entry afterwards when it had one or a
picture is stored for it. -/
theorem readFlac_spec (file : FlacFile) (parser : TagParser) :
    ∃ after, readFlac bigToNative file parser = some after ∧
      after.getAlbumConcatName = albumNamed file parser ∧
      (AlbumArt.Filled (albumNamed file parser) parser.albumArt →
        AlbumArt.Filled (albumNamed file parser) after.albumArt) ∧
      (after.albumArt.contains (albumNamed file parser) = true ↔
        Stored bigToNative file parser ∨
          parser.albumArt.contains (albumNamed file parser) = true) := by
  obtain ⟨mayReadPict, albumArt, first, may, filled, entry⟩ :=
    readFlacId3v2_spec file parser (albumNamed file parser)
  rw [readFlac, first]
  simp only
  cases comment : file.xiphComment with
  | none =>
    have name : (id3v2Read file parser).1.getAlbumConcatName = albumNamed file parser := by
      rw [albumNamed, comment]
      rfl
    have art : ((id3v2Read file parser).1.withArt albumArt).getAlbumConcatName =
        albumNamed file parser := name
    obtain ⟨named, stillFilled, stored⟩ := readFlacBlocks_spec file mayReadPict art
    refine ⟨_, by rw [readFlacComment, comment]; rfl, named, stillFilled ∘ filled, ?_⟩
    rw [stored, TagParser.withArt_albumArt, entry, may, Stored, ← or_assoc]
    simp only [comment, reduceCtorEq, false_and, exists_false, false_or]
    exact or_congr_left or_comm
  | some xiph =>
    have name : (xiph.fieldListMap.foldl fieldTags
        ((id3v2Read file parser).1.withArt albumArt)).getAlbumConcatName =
          albumNamed file parser := by
      rw [foldl_fieldTags_withArt, albumNamed, comment]
      rfl
    obtain ⟨ifReadPict, after, ran, named, stillFilled, present, read⟩ :=
      readXiph_spec bigToNative mayReadPict (!mayReadPict && file.id3v2Tag.isSome) name
    obtain ⟨finalNamed, finalFilled, stored⟩ :=
      readFlacBlocks_spec file (!ifReadPict) named
    refine ⟨_, ?_, finalNamed, finalFilled ∘ stillFilled ∘ filled, ?_⟩
    · rw [readFlacComment, comment]
      simp only [ran]
      rfl
    rw [blockStored_withArt, TagParser.withArt_albumArt, entry, may] at read
    have native : (!ifReadPict) = true ∧ file.pictureList ≠ [] ∨
        after.albumArt.contains (albumNamed file parser) = true ↔
        file.pictureList ≠ [] ∨ after.albumArt.contains (albumNamed file parser) = true := by
      cases ifReadPict with
      | true => simp [present rfl]
      | false => simp
    rw [stored, native, read, Stored]
    simp only [comment, Option.some.injEq, exists_eq_left']
    exact sources_arranged

/-! ## Art that is found -/

/-- At least one of the three sources has a picture. -/
def HasArt (file : FlacFile) : Prop :=
  (∃ tag, file.id3v2Tag = some tag ∧
    ∃ entry ∈ tag, entry.1 = ascii "APIC" ∧ entry.2.filterMap apic ≠ []) ∨
  (∃ comment, file.xiphComment = some comment ∧
    ((∃ field ∈ comment.fieldListMap,
      IsField "COVERART" field ∨ IsField "METADATA_BLOCK_PICTURE" field) ∨
    comment.pictureList ≠ [])) ∨
  file.pictureList ≠ []

/-- The file is read, and the album that is named then has an entry with a picture. -/
def ArtFound (file : FlacFile) (parser : TagParser) : Prop :=
  ∃ after, readMeta bigToNative file parser = some after ∧
    after.albumArt.HasPicture after.getAlbumConcatName

/-- The tag is not empty, and a picture is stored for the album. -/
def ArtReached (file : FlacFile) (parser : TagParser) : Prop :=
  file.tagIsEmpty = false ∧ Stored bigToNative file
    (readProperties file.properties (readAudioProperties file.audioProperties parser))

/-- Art is found exactly when a picture is stored for an album that had no entry. -/
theorem artFound_iff_reached {file : FlacFile} {parser : TagParser}
    (fresh : ∀ after, readMeta bigToNative file parser = some after →
      parser.albumArt.contains after.getAlbumConcatName = false) :
    ArtFound bigToNative file parser ↔ ArtReached bigToNative file parser := by
  rw [ArtFound, ArtReached]
  by_cases empty : file.tagIsEmpty = true
  · rw [empty]
    refine iff_of_false ?_ (fun reached => by cases reached.1)
    rintro ⟨after, ran, found⟩
    have missing := fresh after ran
    rw [readMeta, if_pos empty, Option.some.injEq] at ran
    have same : after.albumArt = parser.albumArt := by
      rw [← ran, TagParser.setTagVal_albumArt, readAudioProperties_albumArt]
    have entry := AlbumArt.contains_of_hasPicture found
    rw [same, missing] at entry
    cases entry
  · obtain ⟨after, ran, name, filled, stored⟩ := readFlac_spec bigToNative file
      (readProperties file.properties (readAudioProperties file.audioProperties parser))
    have read : readMeta bigToNative file parser = some after := by
      rw [readMeta, if_neg empty, ran]
    have missing := fresh after read
    rw [readProperties_albumArt, readAudioProperties_albumArt, ← name] at filled stored
    rw [missing] at stored
    have hasPicture : after.albumArt.HasPicture after.getAlbumConcatName ↔
        after.albumArt.contains after.getAlbumConcatName = true := by
      refine ⟨AlbumArt.contains_of_hasPicture, filled (fun entry => ?_)⟩
      rw [missing] at entry
      cases entry
    simp only [read, Option.some.injEq, exists_eq_left', hasPicture, stored, empty,
      Bool.false_eq_true, or_false, true_and]

/-- For every file and every parser, whose store has no entry for the album that is named in the
end, art that is there is found exactly when the tag is not empty and a picture is stored for
the album: an accepted one of an ID3v2 tag that names an album without an entry, when this is
the album; without such a tag one of the comment or of the file; with such a tag one of the
file, when there is a comment; or a block of the comment that is decoded for the album. -/
theorem artFound_iff (file : FlacFile) (parser : TagParser)
    (fresh : ∀ after, readMeta bigToNative file parser = some after →
      parser.albumArt.contains after.getAlbumConcatName = false) :
    (HasArt file → ArtFound bigToNative file parser) ↔
      (HasArt file → ArtReached bigToNative file parser) :=
  imp_congr_right (fun _ => artFound_iff_reached bigToNative fresh)

end File

/-- A parser without tags and album art. -/
def emptyParser : TagParser := ⟨[], ∅, ∅, ⟨∅⟩⟩

/-- The title of a song. -/
def title : TagString := ⟨['S'], by decide⟩

/-- A file with a picture of its own and without an ID3v2 tag. -/
def pictureFile : FlacFile where
  audioProperties := none
  tagIsEmpty := false
  properties := [(⟨"TITLE".toList, by decide⟩, [title])]
  id3v2Tag := none
  xiphComment := some ⟨[(⟨"TITLE".toList, by decide⟩, [title])], []⟩
  pictureList := [⟨3, jpeg, [1]⟩]

/-- A file whose own picture is stored for its album: the art is found. -/
theorem own_picture_found : ArtFound FlacPicture.bigToNativeInplace pictureFile emptyParser := by
  refine (artFound_iff FlacPicture.bigToNativeInplace pictureFile emptyParser
    (fun _ _ => rfl)).mpr (fun _ => ⟨rfl, Or.inr (Or.inr ⟨?_, ?_⟩)⟩) (Or.inr (Or.inr ?_))
  · exact fun claims => by cases claims.1
  · exact List.cons_ne_nil _ _
  · exact List.cons_ne_nil _ _

/-- A file with an ID3v2 tag without pictures and a Xiph comment with a cover. -/
def coverFile : FlacFile where
  audioProperties := none
  tagIsEmpty := false
  properties := [(⟨"TITLE".toList, by decide⟩, [title])]
  id3v2Tag := some [(ascii "TIT2", [⟨.other, title⟩])]
  xiphComment := some ⟨[(⟨"COVERART".toList, by decide⟩, [⟨"AQID".toList, by decide⟩]),
    (⟨"COVERARTMIME".toList, by decide⟩, [jpeg])], []⟩
  pictureList := []

/-- The cover of this file is not found. -/
theorem cover_not_found :
    (∀ after, readMeta FlacPicture.bigToNativeInplace coverFile emptyParser = some after →
      emptyParser.albumArt.contains after.getAlbumConcatName = false) ∧
    HasArt coverFile ∧ ¬ ArtFound FlacPicture.bigToNativeInplace coverFile emptyParser := by
  refine ⟨fun _ _ => rfl, Or.inr (Or.inl ⟨_, rfl, Or.inl ⟨_, List.mem_cons_self, ?_⟩⟩), ?_⟩
  · exact Or.inl ⟨by decide, List.cons_ne_nil _ _⟩
  · rw [artFound_iff_reached FlacPicture.bigToNativeInplace (fun _ _ => rfl)]
    rintro ⟨_, ⟨_, _, own⟩ | ⟨comment, same, readable | block | native⟩ | ⟨_, native⟩⟩
    · exact own rfl
    · exact readable.1 ⟨rfl, rfl⟩
    · cases same
      rcases block with ⟨cover, _⟩ | ⟨mime, _⟩ | nothing
      · exact absurd cover (by decide)
      · exact absurd mime (by decide)
      · exact nothing
    · exact native rfl
    · exact native rfl

end TagLibParser

end Mprt
