import PySwitch.Domain

namespace PySwitch

def hexDigit (n : ℕ) : Char := "0123456789abcdef".toList.getD (n % 16) '0'

/-- The escape of one UTF-16 code unit. -/
def unicodeEscape (unit : ℕ) : List Char :=
  ['\\', 'u', hexDigit (unit / 4096), hexDigit (unit / 256), hexDigit (unit / 16), hexDigit unit]

def jsonEscape (c : Char) : List Char :=
  if c = '"' then ['\\', '"']
  else if c = '\\' then ['\\', '\\']
  else if c = '\n' then ['\\', 'n']
  else if c = '\r' then ['\\', 'r']
  else if c = '\t' then ['\\', 't']
  else if c.toNat = 12 then ['\\', 'f']
  else if c.toNat = 8 then ['\\', 'b']
  else if 32 ≤ c.toNat ∧ c.toNat ≤ 126 then [c]
  else if c.toNat < 65536 then unicodeEscape c.toNat
  else
    unicodeEscape (55296 + (c.toNat - 65536) / 1024) ++
      unicodeEscape (56320 + (c.toNat - 65536) % 1024)

def jsonString (s : String) : List Char := '"' :: s.toList.flatMap jsonEscape ++ ['"']

def jsonField (name : String) (value : List Char) : List Char := jsonString name ++ ':' :: value

/-- The compact encoding with sorted keys and ASCII escapes. -/
def canonicalJson (data : PaymentInput) : List Char :=
  '{' :: List.intercalate [',']
    [jsonField "amount" (toString data.amount).toList,
     jsonField "currency" (jsonString data.currency),
     jsonField "merchant_id" (jsonString data.merchantId),
     jsonField "payment_method_type" (jsonString data.paymentMethodType),
     jsonField "token" (jsonString data.token)] ++ ['}']

/-- `sha256` is the hexadecimal digest of the encoded text. -/
def requestFingerprint (sha256 : List Char → String) (data : PaymentInput) : String :=
  sha256 (canonicalJson data)

def redisKey (sha256 : List Char → String) (key : RecordKey) : String :=
  "pyswitch:idempotency:" ++ sha256 (key.1.toList ++ Char.ofNat 0 :: key.2.toList)

end PySwitch
