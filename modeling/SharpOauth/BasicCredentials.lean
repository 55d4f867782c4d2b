import SharpOauth.Base64RoundTrip
import SharpOauth.ClientAuthentication

/-! # Client credentials in the `Authorization` header

The header carries `base64(form(id) ":" form(secret))`.  Its layers are undone in turn: the scheme
and the blanks around the credentials (`parseBasicAuthorization_header`), base64 and UTF-8, the
first colon, and the form encoding of each part, which is read by parsing the form `v=<part>`:

* a part that was form-encoded is read back, whatever text it is (`formUrldecode_formEncode`);
* a part that was not is read as it is, if it has no `%` and no `+` (`formUrldecode_plain`): an `&`
  would start a new pair, so it is escaped first.

Hence the header and the form fields carry the same credentials (`basic_credentials`). -/

namespace SharpOauth

namespace Client

/-! ### One part -/

/-- The value of a part with `&` escaped. -/
def escapeAmpersand (value : String) : String :=
  String.ofList (value.toList.flatMap fun c => if c = '&' then "%26".toList else [c])

theorem escapeAmpersand_of_not_mem {value : String} (h : '&' ∉ value.toList) :
    escapeAmpersand value = value := by
  have hsame : value.toList.flatMap (fun c => if c = '&' then "%26".toList else [c]) =
      value.toList.flatMap fun c => [c] := by
    refine List.flatMap_congr fun c hc => if_neg ?_
    rintro rfl
    exact h hc
  rw [escapeAmpersand, hsame, List.flatMap_singleton', String.ofList_toList]

/-- **A form-encoded part is read back.** -/
theorem formUrldecode_formEncode (value : String) : formUrldecode (formEncode value) = value := by
  have hampersand : '&' ∉ (formEncode value).toList := by
    intro hmem
    exact absurd (formEncode_charset value _ hmem) (by decide)
  have hname : formEncode "v" = "v" := by decide +kernel
  have hform : "v=" ++ formEncode value = formAppend "" [("v", value)] := by
    rw [formAppend, formAppend, hname]
    rfl
  have hdef : formUrldecode (formEncode value) = ((formParse (utf8 ("v=" ++
      escapeAmpersand (formEncode value)))).head?.map Prod.snd).getD "" := rfl
  rw [hdef, escapeAmpersand_of_not_mem hampersand, hform, formParse_formAppend]
  rfl

/-- No separator is left in an escaped part. -/
theorem escapeAmpersand_bytes (value : String) : 0x26 ∉ utf8 (escapeAmpersand value) := by
  have hascii : UInt8.ofNat '&'.toNat = 0x26 := rfl
  rw [← hascii, mem_utf8_iff (by decide), escapeAmpersand, String.toList_ofList]
  intro hmem
  obtain ⟨c, -, hc⟩ := List.mem_flatMap.1 hmem
  split_ifs at hc with hamp
  · exact absurd hc (by decide)
  · exact hamp (List.mem_singleton.1 hc).symm

/-- The escape is undone by percent-decoding, if nothing else is escaped. -/
theorem percentDecode_escapeAmpersand {value : String} (h : '%' ∉ value.toList) :
    percentDecode (utf8 (escapeAmpersand value)) = utf8 value := by
  rw [escapeAmpersand, utf8, String.toList_ofList, utf8]
  generalize value.toList = l at h
  induction l with
  | nil => rfl
  | cons c l ih =>
      have hl : '%' ∉ l := fun hmem => h (List.mem_cons_of_mem _ hmem)
      rw [List.flatMap_cons, List.flatMap_append, List.flatMap_cons]
      by_cases hc : c = '&'
      · have hescape : "%26".toList.flatMap String.utf8EncodeChar = [0x25, 0x32, 0x36] := by
          decide +kernel
        have hbytes : String.utf8EncodeChar '&' = [0x26] := by decide +kernel
        rw [if_pos hc, hc, hescape, hbytes]
        simp only [List.cons_append, List.nil_append]
        rw [percentDecode_escape rfl rfl, ih hl]
        rfl
      · have hpercent : 0x25 ∉ String.utf8EncodeChar c := by
          intro hmem
          have hmem' : UInt8.ofNat '%'.toNat ∈ utf8 (String.singleton c) := by
            rw [utf8, String.toList_singleton, List.flatMap_singleton]
            exact hmem
          rw [mem_utf8_iff (by decide), String.toList_singleton, List.mem_singleton] at hmem'
          exact h (hmem' ▸ List.mem_cons_self)
        rw [if_neg hc, List.flatMap_singleton, percentDecode_append hpercent, ih hl]

/-- **A part without `%` and `+` is read as it is.** -/
theorem formUrldecode_plain {value : String} (hpercent : '%' ∉ value.toList)
    (hplus : '+' ∉ value.toList) : formUrldecode value = value := by
  have hdef : formUrldecode value = ((formParse (utf8 ("v=" ++
      escapeAmpersand value))).head?.map Prod.snd).getD "" := rfl
  have hname : utf8 "v=" = [0x76, 0x3D] := by decide +kernel
  have hbytes : utf8 ("v=" ++ escapeAmpersand value) = 0x76 :: 0x3D :: utf8 (escapeAmpersand value) := by
    rw [utf8_append, hname]
    rfl
  have hone : (utf8 ("v=" ++ escapeAmpersand value)).splitOn 0x26 =
      [utf8 ("v=" ++ escapeAmpersand value)] := by
    refine List.splitOn_eq_singleton ?_
    rw [hbytes]
    simp [escapeAmpersand_bytes]
  have hspace : (utf8 (escapeAmpersand value)).map (fun b => if b = 0x2B then 0x20 else b) =
      utf8 (escapeAmpersand value) := by
    refine (List.map_congr_left fun b hb => if_neg ?_).trans (List.map_id' _)
    rintro rfl
    have hmem : UInt8.ofNat '+'.toNat ∈ utf8 (escapeAmpersand value) := hb
    rw [mem_utf8_iff (by decide), escapeAmpersand, String.toList_ofList] at hmem
    obtain ⟨c, hc, hmem⟩ := List.mem_flatMap.1 hmem
    split_ifs at hmem
    · exact absurd hmem (by decide)
    · exact hplus (List.mem_singleton.1 hmem ▸ hc)
  have hvalue : formDecode (utf8 (escapeAmpersand value)) = value := by
    rw [formDecode, hspace, percentDecode_escapeAmpersand hpercent, utf8DecodeLossy_utf8]
  rw [hdef, formParse, hone, hbytes]
  simpa [List.span, List.span.loop] using hvalue

/-! ### The header -/

/-- The credentials of a header, for two parts that are written as they are. -/
def basicCredentials (id secret : String) : String :=
  String.ofList (base64Encode (utf8 (id ++ ":" ++ secret)))

/-- The scheme, the blanks, base64, UTF-8 and the colon are undone. -/
theorem parseBasicAuthorization_header {scheme before after id secret : String}
    (hscheme : asciiLower scheme = "basic") (hbefore : Blank before) (hafter : Blank after)
    (hcolon : ':' ∉ id.toList) (hid : formUrldecode id ≠ "") :
    parseBasicAuthorization (scheme ++ " " ++ (before ++ basicCredentials id secret ++ after)) =
      some (formUrldecode id, formUrldecode secret) := by
  have hspace : ' ' ∉ scheme.toList := by
    intro hmem
    have hlower : ' ' ∈ (asciiLower scheme).toList := by
      rw [asciiLower, String.toList_ofList]
      exact List.mem_map.2 ⟨' ', hmem, by decide⟩
    rw [hscheme] at hlower
    exact absurd hlower (by decide)
  have hsep : " " = String.singleton ' ' := rfl
  have hcolonSep : ":" = String.singleton ':' := rfl
  have hbasic : asciiLower "Basic" = "basic" := by decide +kernel
  have hne : utf8 (id ++ ":" ++ secret) ≠ [] := by
    have hbyte : utf8 ":" = [0x3A] := by decide +kernel
    rw [utf8_append, utf8_append, hbyte]
    simp
  have htrim : trim (before ++ basicCredentials id secret ++ after) = basicCredentials id secret := by
    refine trim_padded hbefore hafter ?_ ?_
    · rw [basicCredentials, String.toList_ofList]
      exact base64Encode_noWhitespace _
    · intro hempty
      have hlist := congrArg String.toList hempty
      rw [basicCredentials, String.toList_ofList] at hlist
      exact base64Encode_ne_nil hne hlist
  rw [parseBasicAuthorization, hsep, splitOnce_append hspace]
  simp only [Option.bind_eq_bind, Option.bind_some]
  rw [if_neg (by rw [hscheme, hbasic]; exact fun h => h rfl), htrim, basicCredentials, String.toList_ofList,
    base64Decode_base64Encode, Option.bind_some, utf8Decode_utf8, Option.bind_some, hcolonSep,
    splitOnce_append hcolon, Option.bind_some, if_neg hid]

/-- A header of the scheme `Basic`, in any letter case, with blanks around the credentials. -/
inductive BasicHeader (credentials : String) : String → Prop where
  | intro (scheme before after : String) (hscheme : asciiLower scheme = "basic")
      (hbefore : Blank before) (hafter : Blank after) :
      BasicHeader credentials (scheme ++ " " ++ (before ++ credentials ++ after))

section credentials

variable {header id secret : String}

/-- Form-encoded credentials are read back. -/
theorem BasicHeader.parse_formEncode
    (h : BasicHeader (basicCredentials (formEncode id) (formEncode secret)) header) (hid : id ≠ "") :
    parseBasicAuthorization header = some (id, secret) := by
  cases h with
  | intro scheme before after hscheme hbefore hafter =>
      have hcolon : ':' ∉ (formEncode id).toList := by
        intro hmem
        exact absurd (formEncode_charset id _ hmem) (by decide)
      have hdecoded : formUrldecode (formEncode id) ≠ "" := by rwa [formUrldecode_formEncode]
      rw [parseBasicAuthorization_header hscheme hbefore hafter hcolon hdecoded,
        formUrldecode_formEncode, formUrldecode_formEncode]

/-- The characters that a part may not have when it is sent as it is. -/
structure SentAsIs (id secret : String) : Prop where
  colon : ':' ∉ id.toList
  id : '%' ∉ id.toList ∧ '+' ∉ id.toList
  secret : '%' ∉ secret.toList ∧ '+' ∉ secret.toList

/-- Credentials that were not encoded are read as they are. -/
theorem BasicHeader.parse_plain (h : BasicHeader (basicCredentials id secret) header)
    (hid : id ≠ "") (hplain : SentAsIs id secret) :
    parseBasicAuthorization header = some (id, secret) := by
  cases h with
  | intro scheme before after hscheme hbefore hafter =>
      have hfirst := formUrldecode_plain hplain.id.1 hplain.id.2
      have hsecond := formUrldecode_plain hplain.secret.1 hplain.secret.2
      have hdecoded : formUrldecode id ≠ "" := by rwa [hfirst]
      rw [parseBasicAuthorization_header hscheme hbefore hafter hplain.colon hdecoded, hfirst, hsecond]

/-- The header and the form fields carry the same credentials. -/
theorem extractCredentials_header_form {pairs pairs' : List (String × String)}
    {params params' : Params} {header' : Option String}
    (hparse : parseBasicAuthorization header = some (id, secret))
    (hparams : Params.fromPairs pairs = .ok params) (hparams' : Params.fromPairs pairs' = .ok params')
    (hnone : ∀ s, ¬Field pairs "client_secret" s)
    (hsame : ∀ id', Field pairs "client_id" id' → id' = id)
    (hid : Field pairs' "client_id" id) (hsecret : Field pairs' "client_secret" secret)
    (hform : ¬HasBasic header') :
    extractCredentials (some header) params = .ok ⟨id, some secret⟩ ∧
      extractCredentials header' params' = .ok ⟨id, some secret⟩ := by
  constructor
  · rw [extractCredentials_basic hparse]
    refine ⟨(no_field_iff hparams).2 hnone, fun id' hid' => ?_, rfl⟩
    exact hsame id' ((field_iff hparams).1 hid')
  · rw [extractCredentials_form hform, (field_iff hparams').2 hid, (field_iff hparams').2 hsecret]
    rfl

/-- **Client credentials in the header decode exactly.** -/
theorem basic_credentials (hid : id ≠ "") :
    (∀ header, BasicHeader (basicCredentials (formEncode id) (formEncode secret)) header →
      parseBasicAuthorization header = some (id, secret)) ∧
    (SentAsIs id secret → ∀ header, BasicHeader (basicCredentials id secret) header →
      parseBasicAuthorization header = some (id, secret)) ∧
    (secret ≠ "" → ∀ header,
      BasicHeader (basicCredentials (formEncode id) (formEncode secret)) header →
      ∀ (pairs pairs' : List (String × String)) (params params' : Params) (header' : Option String),
      Params.fromPairs pairs = .ok params → Params.fromPairs pairs' = .ok params' →
      (∀ s, ¬Field pairs "client_secret" s) → (∀ id', Field pairs "client_id" id' → id' = id) →
      ("client_id", id) ∈ pairs' → ("client_secret", secret) ∈ pairs' → ¬HasBasic header' →
      extractCredentials (some header) params = .ok ⟨id, some secret⟩ ∧
        extractCredentials header' params' = .ok ⟨id, some secret⟩) := by
  refine ⟨fun header h => h.parse_formEncode hid, fun hplain header h => h.parse_plain hid hplain, ?_⟩
  intro hsecret header h pairs pairs' params params' header' hparams hparams' hnone hsame hidField
    hsecretField hform
  exact extractCredentials_header_form (h.parse_formEncode hid) hparams hparams' hnone hsame
    ⟨hidField, hid⟩ ⟨hsecretField, hsecret⟩ hform

end credentials

end Client

/-- A client whose id and secret are full of separators. -/
theorem basic_credentials_separators : Client.parseBasicAuthorization
    ("bAsIc" ++ " " ++ ("  " ++ Client.basicCredentials (formEncode "a:b&c") (formEncode "d=%+ é") ++
      " ")) = some ("a:b&c", "d=%+ é") :=
  (Client.basic_credentials (by decide)).1 _
    (.intro "bAsIc" "  " " " (by decide +kernel) (by simp [Blank, isWhitespace])
      (by simp [Blank, isWhitespace]))

end SharpOauth
