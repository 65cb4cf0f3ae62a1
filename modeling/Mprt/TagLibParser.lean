import Mprt.EmbeddedPictures

/-!
# Reading the tags of a file

The parser keeps the values of tags by column. Tags of the same meaning have a column in
common, which the configuration gives for them; any other tag is a column of its own. Each
kind of tag has a reader that stores its values, and then the pictures it has collected, in
the entry of the album that the values name by then.

A string is kept as its bytes. An album name has one character for each byte.
-/

namespace Mprt

open FlacPicture (ascii)
open EmbeddedPictures

/-- `tag_parser_abstract`. -/
structure TagParser where
  filename : List UInt8
  tagTextCnt : AList (fun _ : List UInt8 => List UInt8)
  tagToColumn : AList (fun _ : List UInt8 => List UInt8)
  albumArt : AlbumArt

namespace TagParser

/-- `to_upper_copy`. -/
def toUpperCopy (text : List UInt8) : List UInt8 :=
  text.map (fun byte => if 97 ≤ byte ∧ byte ≤ 122 then byte - 32 else byte)

/-- `get_tag_col`. -/
def getTagCol (nativeTag : List UInt8) (parser : TagParser) : List UInt8 :=
  (parser.tagToColumn.lookup (toUpperCopy nativeTag)).getD nativeTag

/-- `set_tag_val`. -/
def setTagVal (tagName tagVal : List UInt8) (parser : TagParser) : TagParser :=
  { parser with tagTextCnt := parser.tagTextCnt.insert (parser.getTagCol tagName) tagVal }

/-- `get_tag_val`. -/
def getTagVal (tagName : List UInt8) (parser : TagParser) : List UInt8 :=
  (parser.tagTextCnt.lookup (parser.getTagCol tagName)).getD []

/-- The bytes of a string in an album name. -/
def nameText (bytes : List UInt8) : String :=
  String.ofList (bytes.map (fun byte => Char.ofNat byte.toNat))

/-- `get_album_concat_name`. -/
def getAlbumConcatName (parser : TagParser) : AlbumName where
  artist := nameText (parser.getTagVal (ascii "Artist"))
  albumArtist := nameText (parser.getTagVal (ascii "Album Artist"))
  album := nameText (parser.getTagVal (ascii "Album"))

/-- `_seper`. -/
def seper : List UInt8 := ascii "\\/\\/"

/-- `set_tag_str_list`. -/
def setTagStrList (tagName : List UInt8) (tagStrList : List TagString) (parser : TagParser) :
    TagParser :=
  match tagStrList with
  | [] => parser
  | first :: rest =>
    parser.setTagVal tagName
      (rest.foldl (fun concatVal tagVal => concatVal ++ (seper ++ tagVal.bytes)) first.bytes)

end TagParser

namespace TagLibParser

/-- `get_couple_numbers`. -/
def getCoupleNumbers (strToSplit : List UInt8) : List UInt8 × List UInt8 :=
  if 47 ∈ strToSplit then
    (strToSplit.takeWhile (fun byte => byte ≠ 47),
      (strToSplit.dropWhile (fun byte => byte ≠ 47)).drop 1)
  else (strToSplit, [])

/-! ## ID3v2 -/

/-- `TagLib::ID3v2::UserTextIdentificationFrame`, which always has a field. -/
structure UserTextIdentificationFrame where
  description : TagString
  fieldList : List TagString
  fieldList_ne : fieldList ≠ []

/-- What a frame is cast to. -/
inductive FrameClass where
  | uniqueFileIdentifier (owner : TagString) (identifier : List UInt8)
  | userTextIdentification (txxx : UserTextIdentificationFrame)
  | attachedPicture (apic : AttachedPictureFrame)
  | other

/-- `TagLib::ID3v2::Frame`, with its `toString`. -/
structure Frame where
  frameClass : FrameClass
  text : TagString

/-- A frame of the list UFID. -/
def readUfid (parser : TagParser) (frame : Frame) : TagParser :=
  match frame.frameClass with
  | .uniqueFileIdentifier owner identifier =>
    if owner.latin1Bytes = ascii "http://musicbrainz.org" then
      parser.setTagVal (ascii "UFID") (identifier.take 63)
    else parser
  | _ => parser

/-- A frame of the list TXXX. -/
def readTxxx (parser : TagParser) (frame : Frame) : TagParser :=
  match frame.frameClass with
  | .userTextIdentification txxx =>
    parser.setTagVal txxx.description.bytes (txxx.fieldList.getLast txxx.fieldList_ne).bytes
  | _ => parser

/-- A frame of the list APIC, when it is a picture. -/
def apic (frame : Frame) : Option AttachedPictureFrame :=
  match frame.frameClass with
  | .attachedPicture picture => some picture
  | _ => none

/-- A list of frames in the loop of `read_ID3v2`, with the parser and the pictures that have
been collected. -/
def readFrameList (readPict : Bool) (state : TagParser × List AttachedPictureFrame)
    (entry : List UInt8 × List Frame) : TagParser × List AttachedPictureFrame :=
  match entry.2 with
  | [] => state
  | frame :: _ =>
    if entry.1 = ascii "UFID" then (entry.2.foldl readUfid state.1, state.2)
    else if entry.1 = ascii "TXXX" then (entry.2.foldl readTxxx state.1, state.2)
    else if entry.1 = ascii "TRCK" then
      let pairVals := getCoupleNumbers frame.text.bytes
      ((state.1.setTagVal (ascii "Track") pairVals.1).setTagVal (ascii "TRACKTOTAL") pairVals.2,
        state.2)
    else if entry.1 = ascii "TPOS" then
      let pairVals := getCoupleNumbers frame.text.bytes
      ((state.1.setTagVal (ascii "DisckNo") pairVals.1).setTagVal (ascii "DiscTotal") pairVals.1,
        state.2)
    else if entry.1 = ascii "APIC" ∧ readPict = true then
      (state.1, state.2 ++ entry.2.filterMap apic)
    else
      (entry.2.foldl (fun parser frame => parser.setTagVal entry.1 frame.text.bytes) state.1,
        state.2)

/-- The loop of `read_ID3v2` over the lists of frames. -/
def readFrameListMap (readPict : Bool) (frameListMap : List (List UInt8 × List Frame))
    (parser : TagParser) : TagParser × List AttachedPictureFrame :=
  frameListMap.foldl (readFrameList readPict) (parser, [])

/-- `read_ID3v2`. -/
def readId3v2 (frameListMap : List (List UInt8 × List Frame))
    (readPict overrideAlbumArtContainer : Bool) (parser : TagParser) : Bool × TagParser :=
  let (parser, apicList) := readFrameListMap readPict frameListMap parser
  let albumConcatName := parser.getAlbumConcatName
  if readPict = true ∧
      (parser.albumArt.contains albumConcatName = false ∨ overrideAlbumArtContainer = true) then
    (true, { parser with albumArt := addApics albumConcatName apicList 0 parser.albumArt })
  else (false, parser)

/-! ## Xiph comments -/

/-- `TagLib::Ogg::XiphComment`. -/
structure XiphComment where
  fieldListMap : List (TagString × List TagString)
  pictureList : List FlacPict

/-- What the loop of `read_xiph` has read. -/
structure XiphLoop where
  parser : TagParser
  mimeList : List TagString
  artList : List TagString

/-- The track number of a Xiph comment. -/
def readTrackNumber (text : TagString) (parser : TagParser) : TagParser :=
  let pairNums := getCoupleNumbers text.bytes
  let numbered := parser.setTagVal (ascii "TRACKNUMBER") pairNums.1
  if pairNums.2 ≠ [] then numbered.setTagVal (ascii "TRACKTOTAL") pairNums.1 else numbered

/-- The pictures of METADATA_BLOCK_PICTURE are stored at once. -/
def parseBlocks (bigToNative : BitVec 32 → BitVec 32) :
    List TagString → TagParser → Option TagParser
  | [], parser => some parser
  | art :: artList, parser =>
    (ConvertBase64.convertBase64 (List.replicate art.chars.length 0)
      (ConvertBase64.toCString art.chars)).bind (fun albumArt =>
        match FlacPicture.parseFlacPict bigToNative parser.getAlbumConcatName parser.albumArt
            albumArt with
        | .error _ => none
        | .ok parsed => parseBlocks bigToNative artList { parser with albumArt := parsed.store })

/-- A field in the loop of `read_xiph`. -/
def readField (bigToNative : BitVec 32 → BitVec 32) (state : XiphLoop)
    (field : TagString × List TagString) : Option XiphLoop :=
  let tagName := field.1.bytes
  match field.2 with
  | [] => some state
  | first :: _ =>
    if tagName = ascii "TRACKNUMBER" then
      some { state with parser := readTrackNumber first state.parser }
    else if tagName = ascii "COVERARTMIME" then some { state with mimeList := field.2 }
    else if tagName = ascii "COVERART" then some { state with artList := field.2 }
    else if tagName = ascii "METADATA_BLOCK_PICTURE" then
      (parseBlocks bigToNative field.2 state.parser).map (fun parser =>
        { state with parser := parser, artList := field.2 })
    else some { state with parser := state.parser.setTagStrList tagName field.2 }

/-- The pictures of `read_xiph`: whether there was one, and the store. -/
def readXiphPicts (albumName : AlbumName) (mimeList artList : List TagString)
    (pictureList : List FlacPict) (store : AlbumArt) : Option (Bool × AlbumArt) :=
  let covers :=
    if mimeList ≠ [] ∧ artList ≠ [] then getXiphPicts albumName mimeList artList store
    else some (false, store)
  covers.map (fun (ifReadPict, store) =>
    if ifReadPict = true then (true, store) else readFlacPictures albumName pictureList store)

/-- `read_xiph`. -/
def readXiph (bigToNative : BitVec 32 → BitVec 32) (comment : XiphComment)
    (readPict overrideAlbumArtContainer : Bool) (parser : TagParser) : Option (Bool × TagParser) :=
  (comment.fieldListMap.foldlM (readField bigToNative) ⟨parser, [], []⟩).bind (fun state =>
    let parser := state.parser
    let albumConcatName := parser.getAlbumConcatName
    if readPict = true ∧
        (parser.albumArt.contains albumConcatName = false ∨ overrideAlbumArtContainer = true) then
      (readXiphPicts albumConcatName state.mimeList state.artList comment.pictureList
        parser.albumArt).map (fun (ifReadPict, store) =>
          (ifReadPict, { parser with albumArt := store }))
    else some (false, parser))

/-! ## FLAC files -/

/-- `TagLib::AudioProperties`. -/
structure AudioProperties where
  lengthInMilliseconds : Int
  bitrate : Int
  sampleRate : Int
  channels : Int

/-- `TagLib::FLAC::File`, with whether its tag is empty and the properties of it. -/
structure FlacFile where
  audioProperties : Option AudioProperties
  tagIsEmpty : Bool
  properties : List (TagString × List TagString)
  id3v2Tag : Option (List (List UInt8 × List Frame))
  xiphComment : Option XiphComment
  pictureList : List FlacPict

/-- The audio properties are set. -/
def readAudioProperties (audioProps : Option AudioProperties) (parser : TagParser) : TagParser :=
  match audioProps with
  | none => parser
  | some audioProps =>
    let parser := parser.setTagVal (ascii "Duration(ms)")
      (Decimal.text audioProps.lengthInMilliseconds)
    let parser := parser.setTagVal (ascii "Bit Rate(k/s)") (Decimal.text audioProps.bitrate)
    let parser := parser.setTagVal (ascii "Sample Rate(Hz)") (Decimal.text audioProps.sampleRate)
    parser.setTagVal (ascii "Channels") (Decimal.text audioProps.channels)

/-- The properties of the tag are set. -/
def readProperties (properties : List (TagString × List TagString)) (parser : TagParser) :
    TagParser :=
  properties.foldl (fun parser entry => parser.setTagStrList entry.1.bytes entry.2) parser

/-- The ID3v2 tag of a FLAC file, and whether pictures may still be read. -/
def readFlacId3v2 (file : FlacFile) (parser : TagParser) : Bool × TagParser :=
  match file.id3v2Tag with
  | none => (true, parser)
  | some tag =>
    let (ifReadPict, parser) := readId3v2 tag true false parser
    (!ifReadPict, parser)

/-- The Xiph comment of a FLAC file. -/
def readFlacComment (bigToNative : BitVec 32 → BitVec 32) (file : FlacFile) (mayReadPict : Bool)
    (parser : TagParser) : Option (Bool × TagParser) :=
  match file.xiphComment with
  | none => some (mayReadPict, parser)
  | some comment =>
    (readXiph bigToNative comment mayReadPict (!mayReadPict && file.id3v2Tag.isSome) parser).map
      (fun (ifReadPict, parser) => (!ifReadPict, parser))

/-- The picture list of a FLAC file. -/
def readFlacBlocks (file : FlacFile) (mayReadPict : Bool) (parser : TagParser) : TagParser :=
  let albumConcatName := parser.getAlbumConcatName
  if mayReadPict = true ∧ parser.albumArt.contains albumConcatName = false then
    { parser with
      albumArt := (readFlacPictures albumConcatName file.pictureList parser.albumArt).2 }
  else parser

/-- The branch of `read_meta` for FLAC files. -/
def readFlac (bigToNative : BitVec 32 → BitVec 32) (file : FlacFile) (parser : TagParser) :
    Option TagParser :=
  let (mayReadPict, parser) := readFlacId3v2 file parser
  (readFlacComment bigToNative file mayReadPict parser).map (fun (mayReadPict, parser) =>
    readFlacBlocks file mayReadPict parser)

/-- `read_meta` of a FLAC file: the parser afterwards. -/
def readMeta (bigToNative : BitVec 32 → BitVec 32) (file : FlacFile) (parser : TagParser) :
    Option TagParser :=
  let parser := readAudioProperties file.audioProperties parser
  if file.tagIsEmpty = true then some (parser.setTagVal (ascii "TITLE") parser.filename)
  else readFlac bigToNative file (readProperties file.properties parser)

end TagLibParser

end Mprt
