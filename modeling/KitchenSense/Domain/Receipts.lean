import KitchenSense.Domain.Values

/-! # Receipt uploads

An upload the API has issued a URL for, and the name of its blob.
-/

namespace KitchenSense

/-- `"{t:%Y/%m/%d}"`: the year is not padded. -/
def Date.path (d : Date) : List Char :=
  Nat.toDigits 10 d.year ++ '/' :: (digits 10 2 d.month ++ '/' :: digits 10 2 d.day)

/-- The one place a receipt's blob name is decided; `day` is the date of the request. -/
def receiptBlobName (householdId uploadId : UUID) (day : Date) : String :=
  String.ofList (householdId.str.toList ++ '/' :: (day.path ++ '/' :: uploadId.str.toList))

theorem householdId_of_receiptBlobName {a b x y : UUID} {d e : Date}
    (h : receiptBlobName a x d = receiptBlobName b y e) : a = b := by
  have hl := String.ofList_injective h
  exact UUID.str_inj (String.toList_injective (List.append_inj_left hl
    (a.length_str.trans b.length_str.symm)))

structure ReceiptUpload where
  id : UUID
  householdId : UUID
  blobName : String
  contentType : String
  requestedAt : Instant
  expiresAt : Instant
  confirmedAt : Option Instant
  deriving DecidableEq

namespace ReceiptUpload

def isConfirmed (u : ReceiptUpload) : Bool := u.confirmedAt.isSome

def hasExpired (u : ReceiptUpload) (asOf : Instant) : Bool := asOf ≥ u.expiresAt

end ReceiptUpload

end KitchenSense
