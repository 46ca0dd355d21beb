import SvgDisplayList.Image.DataUri
import SvgDisplayList.Proofs.Codec.Base64
import SvgDisplayList.Proofs.Text.Trim

/-!
# Data URIs there and back

A data URI is put together from a media type, parameters and a payload (`EmbeddedImage.uriText`).
If the payload is the base64 form of some bytes, whatever white space of ASCII stands in it, and one
of the parameters says so, the bytes are read with the declared format; and whenever bytes are read
from a URI, its payload is the base64 form of these bytes (`EmbeddedImage.ofDataUri_uriText`).

The payload is read as bytes in UTF-8.  That no payload beyond ASCII slips through is due to
different texts being different bytes (`EmbeddedImage.utf8_injective`).
-/

namespace SvgDisplayList

/-- The text of the base64 form of a byte sequence. -/
def Base64.text (data : List UInt8) : List Char := (encode data).map fun b => Char.ofNat b.toNat

/-- The names of a format as a declared media type, in lower case. -/
def ImageFormat.mediaTypes : ImageFormat → List String
  | png => ["image/png"]
  | jpeg => ["image/jpeg", "image/jpg"]

/-- The three names of media types. -/
lemma ImageFormat.mem_mediaTypes {format : ImageFormat} {name : String}
    (h : name ∈ format.mediaTypes) :
    (format = png ∧ name = "image/png") ∨ (format = jpeg ∧ name = "image/jpeg") ∨
      (format = jpeg ∧ name = "image/jpg") := by
  cases format with
  | png => exact Or.inl ⟨rfl, List.mem_singleton.mp h⟩
  | jpeg =>
    rcases List.mem_cons.mp h with hname | hname
    · exact Or.inr (Or.inl ⟨rfl, hname⟩)
    · exact Or.inr (Or.inr ⟨rfl, List.mem_singleton.mp hname⟩)

namespace EmbeddedImage

/-- A payload without its white space of ASCII. -/
def compact (payload : List Char) : List Char := payload.filter fun c => !Text.isAsciiBlank c

/-- The payload of a URI: what stands behind the first comma of the trimmed URI. -/
def payload? (uri : String) : Option (List Char) :=
  (Text.splitAt? (· == ',') (Text.trim uri.toList)).map (·.2)

/-- The URI of a media type, parameters and a payload. -/
def uriText (mediaType : List Char) (parameters : List (List Char)) (payload : List Char) :
    String :=
  String.ofList
    ("data:".toList ++ ([';'].intercalate (mediaType :: parameters) ++ ',' :: payload))

/-! ## Texts as bytes -/

/-- The bytes of an array are gone through one after the other. -/
private lemma toList_loop_eq (bytes : ByteArray) (i : Nat) (done : List UInt8) :
    ByteArray.toList.loop bytes i done = done.reverse ++ bytes.data.toList.drop i := by
  induction i, done using ByteArray.toList.loop.induct bytes with
  | case1 i done hi ih =>
    have hlength : i < bytes.data.toList.length := by simpa using hi
    have hget : bytes.get! i = bytes.data.toList[i] := by
      rw [Array.getElem_toList]
      exact getElem!_pos bytes.data i (by simpa using hi)
    rw [ByteArray.toList.loop, if_pos hi, ih, List.drop_eq_getElem_cons hlength, hget,
      List.reverse_cons, List.append_assoc, List.singleton_append]
  | case2 i done hi =>
    have hlength : bytes.data.toList.length ≤ i := by simpa using hi
    rw [ByteArray.toList.loop, if_neg hi, List.drop_eq_nil_of_le hlength, List.append_nil]

/-- The bytes of a text are those of its encoding. -/
lemma utf8_eq (cs : List Char) : utf8 cs = cs.utf8Encode.data.toList := by
  unfold utf8 ByteArray.toList
  rw [toList_loop_eq, String.toUTF8_eq_toByteArray, String.toByteArray_ofList]
  rfl

/-- Different texts are different bytes. -/
lemma utf8_injective : Function.Injective utf8 := by
  intro cs ds h
  rw [utf8_eq, utf8_eq] at h
  have hencode : cs.utf8Encode = ds.utf8Encode := by
    ext1
    exact Array.ext' h
  have hstring : String.ofList cs = String.ofList ds := by
    rw [← String.toByteArray_inj, String.toByteArray_ofList, String.toByteArray_ofList, hencode]
  rw [← String.toList_ofList (l := cs), hstring, String.toList_ofList]

/-- Bytes of ASCII are the bytes of their characters. -/
lemma utf8_map_ofNat {bytes : List UInt8} (h : ∀ b ∈ bytes, b.toNat < 128) :
    utf8 (bytes.map fun b => Char.ofNat b.toNat) = bytes := by
  rw [utf8_eq]
  induction bytes with
  | nil => rfl
  | cons b bytes ih =>
    obtain ⟨hb, hbytes⟩ := List.forall_mem_cons.mp h
    have hnat : (Char.ofNat b.toNat).toNat = b.toNat := by
      rw [Char.ofNat, dif_pos (Or.inl (by omega))]
      rfl
    have hsize : (Char.ofNat b.toNat).utf8Size = 1 := by
      rw [Char.utf8Size_eq_one_iff, UInt32.le_iff_toNat_le]
      change (Char.ofNat b.toNat).toNat ≤ 127
      omega
    have hchar : (Char.ofNat b.toNat).val.toUInt8 = b := by
      refine UInt8.toNat.inj ?_
      rw [UInt32.toNat_toUInt8]
      change (Char.ofNat b.toNat).toNat % 256 = b.toNat
      omega
    rw [List.map_cons, List.utf8Encode_cons, List.utf8Encode_singleton,
      String.utf8EncodeChar_eq_singleton hsize, ByteArray.toList_data_append, ih hbytes, hchar]
    rfl

/-- A text is the base64 form of bytes exactly if its bytes are. -/
lemma utf8_eq_encode_iff {cs : List Char} {data : List UInt8} :
    utf8 cs = Base64.encode data ↔ cs = Base64.text data := by
  have htext : utf8 (Base64.text data) = Base64.encode data := by
    refine utf8_map_ofNat fun b hb => ?_
    rcases Base64.mem_encode hb with rfl | ⟨n, -, rfl⟩
    · decide
    · exact Base64.toNat_symbol_lt n
  rw [← htext]
  exact utf8_injective.eq_iff

/-! ## Payloads -/

/-- A symbol of base64 is no blank. -/
lemma isBlank_of_mem_text {data : List UInt8} {c : Char} (hc : c ∈ Base64.text data) :
    Text.isBlank c = false := by
  have hsymbols : ∀ n < 64, Text.isBlank (Char.ofNat (Base64.symbol n).toNat) = false := by decide
  obtain ⟨b, hb, rfl⟩ := List.mem_map.mp hc
  rcases Base64.mem_encode hb with rfl | ⟨n, hn, rfl⟩
  · decide
  · exact hsymbols n hn

/-- Blanks behind the base64 form of bytes make no difference to it. -/
lemma compact_dropTrailing {payload : List Char} {data : List UInt8}
    (h : compact payload = Base64.text data) :
    compact (Text.dropTrailing Text.isBlank payload) = Base64.text data := by
  obtain ⟨b, hb, heq⟩ := Text.exists_dropTrailing Text.isBlank payload
  have hsplit : compact payload =
      compact (Text.dropTrailing Text.isBlank payload) ++ compact b :=
    (congrArg compact heq).trans (List.filter_append _ _)
  have hnone : compact b = [] := by
    refine List.eq_nil_iff_forall_not_mem.mpr fun c hc => ?_
    have htext : c ∈ Base64.text data := by
      rw [← h, hsplit]
      exact List.mem_append_right _ hc
    have hblank := hb c (List.mem_filter.mp hc).1
    rw [isBlank_of_mem_text htext] at hblank
    cases hblank
  rw [← h, hsplit, hnone, List.append_nil]

/-! ## Headers -/

/-- A word that is a name up to case and blanks around it has no other characters. -/
lemma not_mem_of_sameIgnoringCase {word name : List Char} {c : Char}
    (h : Text.sameIgnoringCase (Text.trim word) name = true) (hblank : Text.isBlank c = false)
    (hname : c.toLower ∉ Text.lower name) : c ∉ word := by
  obtain ⟨a, b, ha, hb, heq⟩ := Text.exists_trim word
  have hnone : ∀ run : List Char, Text.IsBlankRun run → c ∉ run := by
    intro run hrun hc
    have hc' := hrun c hc
    rw [hblank] at hc'
    cases hc'
  rw [heq]
  intro hc
  rcases List.mem_append.mp hc with hc | hc
  · exact hnone a ha hc
  rcases List.mem_append.mp hc with hc | hc
  · have hsame : Text.lower (Text.trim word) = Text.lower name := beq_iff_eq.mp h
    rw [← hsame] at hname
    exact hname (List.mem_map_of_mem hc)
  · exact hnone b hb hc

/-- A blank is no capital letter. -/
lemma toLower_of_isBlank {c : Char} (h : Text.isBlank c = true) : c.toLower = c := by
  have hupper : ¬ (65 ≤ c.val.toNat ∧ c.val.toNat ≤ 90) := by
    rintro ⟨hle, hge⟩
    change 65 ≤ c.toNat at hle
    change c.toNat ≤ 90 at hge
    simp only [Text.isBlank, Bool.or_eq_true, Bool.and_eq_true, decide_eq_true_eq,
      beq_iff_eq] at h
    omega
  unfold Char.toLower
  rw [dif_neg]
  simpa [UInt32.le_iff_toNat_le] using hupper

/-- A word that is a name without blanks up to case has no blanks. -/
lemma trim_of_sameIgnoringCase {word name : List Char} (h : Text.sameIgnoringCase word name = true)
    (hname : ∀ c ∈ Text.lower name, Text.isBlank c = false) : Text.trim word = word := by
  refine Text.trim_eq_of_not_blank fun c hc => ?_
  have hlower : c.toLower ∈ Text.lower name := by
    have hsame : Text.lower word = Text.lower name := beq_iff_eq.mp h
    exact hsame ▸ List.mem_map_of_mem hc
  by_contra hblank
  rw [Bool.not_eq_false] at hblank
  have hplain := hname _ hlower
  rw [toLower_of_isBlank hblank, hblank] at hplain
  cases hplain

/-- The names of media types have no blanks. -/
lemma not_isBlank_of_mem_mediaTypes {format : ImageFormat} {name : String}
    (h : name ∈ format.mediaTypes) : ∀ c ∈ Text.lower name.toList, Text.isBlank c = false := by
  have hnone : (Text.lower name.toList).any Text.isBlank = false := by
    rcases ImageFormat.mem_mediaTypes h with ⟨-, rfl⟩ | ⟨-, rfl⟩ | ⟨-, rfl⟩ <;> decide
  intro c hc
  exact Bool.eq_false_iff.mpr (List.any_eq_false.mp hnone c hc)

/-- A declared media type decides the format, whatever the data. -/
lemma formatOf_of_sameIgnoringCase {mediaType : List Char} {format : ImageFormat} {name : String}
    (hname : name ∈ format.mediaTypes)
    (h : Text.sameIgnoringCase (Text.trim mediaType) name.toList = true) (data : List UInt8) :
    formatOf (String.ofList (Text.lower (Text.trim mediaType))) data = .ok format := by
  have hsame : Text.lower (Text.trim mediaType) = Text.lower name.toList := beq_iff_eq.mp h
  rw [hsame]
  rcases ImageFormat.mem_mediaTypes hname with ⟨rfl, rfl⟩ | ⟨rfl, rfl⟩ | ⟨rfl, rfl⟩ <;> rfl

/-! ## Whole URIs -/

/-- A URI loses the blanks at its end. -/
lemma trim_uriText (mediaType : List Char) (parameters : List (List Char)) (payload : List Char) :
    Text.trim (uriText mediaType parameters payload).toList =
      "data:".toList ++ ([';'].intercalate (mediaType :: parameters) ++
        ',' :: Text.dropTrailing Text.isBlank payload) := by
  have hcomma : Text.isBlank ',' = false := rfl
  unfold uriText
  rw [String.toList_ofList]
  change Text.trim ('d' :: _) = _
  rw [Text.trim_cons rfl]
  change 'd' :: Text.dropTrailing Text.isBlank
    ("ata:".toList ++ ([';'].intercalate (mediaType :: parameters) ++ ',' :: payload)) = _
  rw [← List.append_assoc, Text.dropTrailing_append_cons hcomma, List.append_assoc]
  rfl

/-- Bytes are read from every URI that has their base64 form and says so. -/
lemma ofDataUri_uriText {format : ImageFormat} {name : String} {mediaType payload : List Char}
    {parameters : List (List Char)} {data : List UInt8} (hname : name ∈ format.mediaTypes)
    (hmedia : Text.sameIgnoringCase (Text.trim mediaType) name.toList = true)
    (hcomma : ∀ p ∈ parameters, ',' ∉ p)
    (hbase64 : ∃ p ∈ parameters, Text.sameIgnoringCase (Text.trim p) "base64".toList = true)
    (hpayload : compact payload = Base64.text data) :
    ofDataUri (uriText mediaType parameters payload) = .ok ⟨data, format⟩ := by
  have hplain : ∀ c, c = ',' ∨ c = ';' → c ∉ mediaType := by
    intro c hc
    refine not_mem_of_sameIgnoringCase hmedia ?_ ?_
    · rcases hc with rfl | rfl <;> rfl
    · rcases ImageFormat.mem_mediaTypes hname with ⟨-, rfl⟩ | ⟨-, rfl⟩ | ⟨-, rfl⟩ <;>
        rcases hc with rfl | rfl <;> decide
  have hheader : ∀ c ∈ [';'].intercalate (mediaType :: parameters), (c == ',') = false := by
    refine Text.not_of_mem_intercalate rfl (List.forall_mem_cons.mpr ⟨?_, fun p hp => ?_⟩)
    · exact fun c hc => beq_eq_false_iff_ne.mpr fun heq => hplain c (Or.inl heq) hc
    · refine fun c hc => beq_eq_false_iff_ne.mpr ?_
      rintro rfl
      exact hcomma p hp hc
  have hpieces : Text.pieces (· == ';') ([';'].intercalate (mediaType :: parameters)) =
      mediaType :: parameters.flatMap (Text.pieces (· == ';')) := by
    rw [Text.pieces_intercalate_eq_flatMap rfl (List.cons_ne_nil _ _), List.flatMap_cons,
      Text.pieces_eq_singleton]
    · rfl
    · intro c hc
      exact beq_eq_false_iff_ne.mpr fun heq => hplain c (Or.inr heq) hc
  have hany : (parameters.flatMap (Text.pieces (· == ';'))).any
      (fun p => Text.sameIgnoringCase (Text.trim p) "base64".toList) = true := by
    obtain ⟨p, hp, hsame⟩ := hbase64
    have hp' : Text.pieces (· == ';') p = [p] := by
      refine Text.pieces_eq_singleton fun c hc => beq_eq_false_iff_ne.mpr ?_
      rintro rfl
      exact not_mem_of_sameIgnoringCase hsame rfl (by decide) hc
    refine List.any_eq_true.mpr ⟨p, List.mem_flatMap.mpr ⟨p, hp, ?_⟩, hsame⟩
    rw [hp']
    exact List.mem_singleton_self p
  have hdecode : Base64.decode (utf8 (compact (Text.dropTrailing Text.isBlank payload))) =
      .ok data := by
    rw [Base64.decode_eq_ok_iff, utf8_eq_encode_iff]
    exact compact_dropTrailing hpayload
  unfold ofDataUri
  rw [trim_uriText, Text.after?_append]
  dsimp only
  rw [Text.splitAt?_append hheader rfl]
  dsimp only
  rw [hpieces, List.map_cons, List.drop_succ_cons, List.drop_zero, List.any_map]
  change (if !((parameters.flatMap (Text.pieces (· == ';'))).any
    (fun p => Text.sameIgnoringCase (Text.trim p) "base64".toList)) then _ else _) = _
  rw [hany, Bool.not_true, if_neg Bool.false_ne_true]
  unfold compact at hdecode
  rw [hdecode, List.headD_cons]
  dsimp only
  rw [formatOf_of_sameIgnoringCase hname hmedia]
  rfl

/-- The payload of a URI stands behind its first comma, which is not in the scheme. -/
lemma payload?_eq_some {uri : String} {rest header payload : List Char}
    (hafter : Text.after? "data:".toList (Text.trim uri.toList) = some rest)
    (hsplit : Text.splitAt? (· == ',') rest = some (header, payload)) :
    payload? uri = some payload := by
  obtain ⟨c, hc, rfl, hheader⟩ := Text.eq_append_of_splitAt? hsplit
  have hscheme : ∀ x ∈ "data:".toList, (x == ',') = false := by
    intro x hx
    rw [beq_eq_false_iff_ne]
    rintro rfl
    exact absurd hx (by decide)
  have hstart : ∀ x ∈ "data:".toList ++ header, (x == ',') = false :=
    List.forall_mem_append.mpr ⟨hscheme, hheader⟩
  unfold payload?
  rw [Text.eq_append_of_after? hafter, ← List.append_assoc, Text.splitAt?_append hstart hc]
  rfl

/-- The payload of a URI from which bytes are read is their base64 form. -/
lemma compact_payload?_of_ofDataUri {uri : String} {image : EmbeddedImage}
    (h : ofDataUri uri = .ok image) :
    (payload? uri).map compact = some (Base64.text image.data) := by
  unfold ofDataUri at h
  cases hafter : Text.after? "data:".toList (Text.trim uri.toList) with
  | none =>
    rw [hafter] at h
    cases h
  | some rest =>
    rw [hafter] at h
    dsimp only at h
    cases hsplit : Text.splitAt? (· == ',') rest with
    | none =>
      rw [hsplit] at h
      cases h
    | some parts =>
      obtain ⟨header, payload⟩ := parts
      rw [hsplit] at h
      dsimp only at h
      split_ifs at h
      cases hdecode : Base64.decode (utf8 (compact payload)) with
      | error e =>
        unfold compact at hdecode
        rw [hdecode] at h
        dsimp only at h
        cases h
      | ok data =>
        have htext := utf8_eq_encode_iff.mp (Base64.decode_eq_ok_iff.mp hdecode)
        unfold compact at hdecode
        rw [hdecode] at h
        dsimp only at h
        cases hformat : formatOf
            (String.ofList (Text.lower (((Text.pieces (· == ';') header).map Text.trim).headD [])))
            data with
        | error e =>
          rw [hformat] at h
          cases h
        | ok format =>
          rw [hformat] at h
          cases h
          rw [payload?_eq_some hafter hsplit, Option.map_some, htext]

/-! ## There and back -/

/-- From a URI with a media type, in any case, of a format, with parameters that have no comma and
one of which says base64, and with a payload that is the base64 form of bytes but for white space of
ASCII, these bytes are read in that format.  Whenever bytes are read from a URI, its payload without
white space is their base64 form.  So URIs from which the same bytes are read have the same payload
but for white space. -/
theorem ofDataUri_roundtrip :
    (∀ (format : ImageFormat) (name : String) (mediaType payload : List Char)
      (parameters : List (List Char)) (data : List UInt8), name ∈ format.mediaTypes →
      Text.sameIgnoringCase mediaType name.toList = true → (∀ p ∈ parameters, ',' ∉ p) →
      (∃ p ∈ parameters, Text.sameIgnoringCase (Text.trim p) "base64".toList = true) →
      compact payload = Base64.text data →
      ofDataUri (uriText mediaType parameters payload) = .ok ⟨data, format⟩) ∧
    (∀ uri image, ofDataUri uri = .ok image →
      (payload? uri).map compact = some (Base64.text image.data)) ∧
    ∀ uri uri' image image', ofDataUri uri = .ok image → ofDataUri uri' = .ok image' →
      image.data = image'.data → (payload? uri).map compact = (payload? uri').map compact := by
  refine ⟨?_, fun uri image => compact_payload?_of_ofDataUri, ?_⟩
  · intro format name mediaType payload parameters data hname hmedia hcomma hbase64 hpayload
    have htrim := trim_of_sameIgnoringCase hmedia (not_isBlank_of_mem_mediaTypes hname)
    exact ofDataUri_uriText hname (htrim.symm ▸ hmedia) hcomma hbase64 hpayload
  · intro uri uri' image image' h h' hdata
    rw [compact_payload?_of_ofDataUri h, compact_payload?_of_ofDataUri h', hdata]

/-- The first bytes of a file, which are read although the letters of the media type and of the
parameter are capital ones in part, other parameters stand in front and the payload is broken into
lines; and whatever URI they are read from has this payload. -/
theorem ofDataUri_roundtrip_broken :
    let mediaType := "Image/PNG".toList
    let parameters := [" charset=x".toList, " BASE64 ".toList]
    let payload := " iVBO\n Rw==\t".toList
    "image/png" ∈ ImageFormat.png.mediaTypes ∧
    Text.sameIgnoringCase mediaType "image/png".toList = true ∧
    (∀ p ∈ parameters, ',' ∉ p) ∧
    (∃ p ∈ parameters, Text.sameIgnoringCase (Text.trim p) "base64".toList = true) ∧
    compact payload = Base64.text [137, 80, 78, 71] ∧
    ofDataUri (uriText mediaType parameters payload) = .ok ⟨[137, 80, 78, 71], .png⟩ ∧
    ∀ uri format, ofDataUri uri = .ok ⟨[137, 80, 78, 71], format⟩ →
      (payload? uri).map compact = some "iVBORw==".toList := by
  intro mediaType parameters payload
  have hname : "image/png" ∈ ImageFormat.png.mediaTypes := by decide
  have hmedia : Text.sameIgnoringCase mediaType "image/png".toList = true := by decide
  have hcomma : ∀ p ∈ parameters, ',' ∉ p := by decide
  have hbase64 : ∃ p ∈ parameters, Text.sameIgnoringCase (Text.trim p) "base64".toList = true :=
    ⟨" BASE64 ".toList, by decide, by decide⟩
  have hpayload : compact payload = Base64.text [137, 80, 78, 71] := by decide
  obtain ⟨hread, hback, -⟩ := ofDataUri_roundtrip
  refine ⟨hname, hmedia, hcomma, hbase64, hpayload, ?_, fun uri format h => ?_⟩
  · exact hread .png "image/png" mediaType payload parameters _ hname hmedia hcomma hbase64 hpayload
  · rw [hback uri _ h]
    rfl

end EmbeddedImage

end SvgDisplayList
