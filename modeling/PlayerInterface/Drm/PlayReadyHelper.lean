import PlayerInterface.BaseConversion.Base64
import PlayerInterface.Core.IntLoop
import PlayerInterface.Core.Search

/-!
# The PlayReady helper

`parsePssh` drops the zero bytes of the init data and searches what is left for
the version and the key id. `uuid_unparse_lower` is a parameter.
-/

namespace PlayerInterface.Drm

open PlayerInterface.Core PlayerInterface.BaseConversion

/-- A string literal of the source. -/
def ascii (s : String) : Bytes := s.toList.map fun c => UInt8.ofNat c.toNat

def PLAYREADY_VERSION_4_0_KID_START : Bytes := ascii "<KID>"
def PLAYREADY_VERSION_4_X_KID_START : Bytes := ascii "<KID"
def PLAYREADY_KID_END : Bytes := ascii "</KID>"
def PLAYREADY_VERSION_4_0 : Bytes := ascii "4.0.0.0"
def PLAYREADY_VERSION_4_1 : Bytes := ascii "4.1.0.0"
def PLAYREADY_VERSION_4_2 : Bytes := ascii "4.2.0.0"
def PLAYREADY_VERSION_4_3 : Bytes := ascii "4.3.0.0"
def DRM_METADATA_TAG_START : Bytes := ascii "<ckm:policy xmlns:ckm=\"urn:ccp:ckm\">"
def DRM_METADATA_TAG_END : Bytes := ascii "</ckm:policy>"
def PLAYREADY_DECODED_KEY_ID_LEN : Nat := 16
def PLAYREADY_KEY_ID_LEN : Nat := 37

/-! ## Endianness of a GUID -/

def swapBytes (bytes : Bytes) (pos1 pos2 : Nat) : Bytes :=
  (bytes.set pos1 (bytes.getD pos2 0)).set pos2 (bytes.getD pos1 0)

def convertEndianness (original : Bytes) : Bytes :=
  let guidBytes := original.take 16
  swapBytes (swapBytes (swapBytes (swapBytes guidBytes 0 3) 1 2) 4 5) 6 7

/-! ## The helper -/

/-- What a caller passes: the length is a `uint32_t`. -/
structure InitData where
  bytes : Bytes
  length_lt : bytes.length < 2 ^ 32

structure PlayReadyHelper where
  mInitData : Bytes := []
  mKeyID : Bytes := []
  mContentMetaData : Bytes := []
  mStrInitDataFormated : Bytes := []
deriving DecidableEq, Repr

namespace PlayReadyHelper

/-- The key id as text in the header, empty when a delimiter is missing. -/
def extractKeyID (helper : PlayReadyHelper) : Bytes :=
  let data := helper.mStrInitDataFormated
  let propValueEnd := ascii "\""
  let version := findSubstr data (ascii "version=\"") propValueEnd
  if version = PLAYREADY_VERSION_4_0 then
    findSubstr data PLAYREADY_VERSION_4_0_KID_START PLAYREADY_KID_END
  else if version = PLAYREADY_VERSION_4_1 then
    let protectInfo := findSubstr data (ascii "<PROTECTINFO>") (ascii "</PROTECTINFO>")
    let keyTag := findSubstr protectInfo PLAYREADY_VERSION_4_X_KID_START PLAYREADY_KID_END
    findSubstr keyTag (ascii "VALUE=\"") propValueEnd
  else if version = PLAYREADY_VERSION_4_2 then
    let protectInfo := findSubstr data (ascii "<PROTECTINFO>") (ascii "</PROTECTINFO>")
    let kids := findSubstr protectInfo (ascii "<KIDS>") (ascii "</KIDS>")
    let keyTag := findSubstr kids PLAYREADY_VERSION_4_X_KID_START PLAYREADY_KID_END
    findSubstr keyTag (ascii "VALUE=\"") propValueEnd
  else if version = PLAYREADY_VERSION_4_3 then
    let protectInfo := findSubstr data (ascii "<PROTECTINFO") (ascii "</PROTECTINFO>")
    let kids := findSubstr protectInfo (ascii "<KIDS>") (ascii "</KIDS>")
    let keyTag := findSubstr kids PLAYREADY_VERSION_4_X_KID_START PLAYREADY_KID_END
    findSubstr keyTag (ascii "VALUE=\"") propValueEnd
  else []

def extractMetaData (helper : PlayReadyHelper) : Bytes :=
  findSubstr helper.mStrInitDataFormated DRM_METADATA_TAG_START DRM_METADATA_TAG_END

/-- One turn of the loop that cleans the init data. -/
def keepNonzero (cleanedPssh : Bytes) (byte : UInt8) : Bytes :=
  if byte ≠ 0 then cleanedPssh ++ [byte] else cleanedPssh

/-- The branch for a key id that was found. -/
def storeKeyID (uuid_unparse_lower : Bytes → Bytes) (helper : PlayReadyHelper)
    (keyData : Bytes) : Bool × PlayReadyHelper :=
  let decodedKeydata := (base64_Decode keyData).getD []
  if decodedKeydata.length ≠ PLAYREADY_DECODED_KEY_ID_LEN then (false, helper)
  else
    let keyId := uuid_unparse_lower (convertEndianness decodedKeydata)
    (true, { helper with mKeyID := keyId.take (PLAYREADY_KEY_ID_LEN - 1) })

/-- The key id and the metadata of the cleaned init data. -/
def parseFormated (uuid_unparse_lower : Bytes → Bytes) (helper : PlayReadyHelper) :
    Bool × PlayReadyHelper :=
  let keyData := helper.extractKeyID
  let (res, helper) :=
    if keyData.isEmpty then (false, helper) else helper.storeKeyID uuid_unparse_lower keyData
  (res, { helper with mContentMetaData := helper.extractMetaData })

/-- The cleaning loop runs an `int` up to the length, so it has no result when the
length is above the largest `int`; `none` for the init data is a null pointer. -/
def parsePssh (uuid_unparse_lower : Bytes → Bytes) (helper : PlayReadyHelper)
    (initData : Option InitData) : Option (Bool × PlayReadyHelper) :=
  match initData with
  | none => some (false, helper)
  | some ⟨initData, _⟩ =>
      if initData.length > 0 then
        (intLoop keepNonzero initData 0 []).map fun cleanedPssh =>
          parseFormated uuid_unparse_lower
            { helper with mInitData := initData, mStrInitDataFormated := cleanedPssh }
      else some (false, helper)

end PlayReadyHelper
end PlayerInterface.Drm
