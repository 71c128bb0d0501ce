import PySwitch.SqlRepository
import Mathlib.Data.List.Forall2

namespace PySwitch

inductive ColumnType where
  | string (length : ℕ)
  | integer
  | uuid
  | timestamp
  deriving DecidableEq, Repr

inductive SqlValue where
  | null
  | text (s : String)
  | int (x : ℤ)
  | uuid (id : Uuid)
  | time (reading : Seconds)
  deriving DecidableEq, Repr

structure Column where
  name : String
  type : ColumnType
  nullable : Bool := false
  deriving DecidableEq, Repr

/-- An `Integer` has 32 bits, and a `String` at most as many characters as its length. -/
def ColumnType.Holds : ColumnType → SqlValue → Prop
  | .string length, .text s => s.length ≤ length
  | .integer, .int x => -2147483648 ≤ x ∧ x ≤ 2147483647
  | .uuid, .uuid _ => True
  | .timestamp, .time _ => True
  | _, _ => False

def Column.Accepts (column : Column) (value : SqlValue) : Prop :=
  if value = .null then column.nullable = true else column.type.Holds value

def PaymentStatus.value : PaymentStatus → String
  | .pending => "PENDING"
  | .processing => "PROCESSING"
  | .succeeded => "SUCCEEDED"
  | .failed => "FAILED"
  | .refunded => "REFUNDED"

def SqlValue.ofText : Option String → SqlValue
  | none => .null
  | some s => .text s

def MerchantRow.columns : List Column :=
  [⟨"id", .string 100, false⟩, ⟨"created_at", .timestamp, false⟩]

def MerchantRow.values (merchant : String × Seconds) : List SqlValue :=
  [.text merchant.1, .time merchant.2]

namespace PaymentRow

/-- A foreign key has the type of the column it refers to. -/
def columns : List Column :=
  [⟨"id", .uuid, false⟩, ⟨"merchant_id", .string 100, false⟩, ⟨"amount", .integer, false⟩,
    ⟨"currency", .string 3, false⟩, ⟨"status", .string 20, false⟩,
    ⟨"payment_method_type", .string 30, false⟩, ⟨"idempotency_key", .string 255, false⟩,
    ⟨"request_fingerprint", .string 64, false⟩, ⟨"provider", .string 50, true⟩,
    ⟨"provider_reference", .string 255, true⟩, ⟨"refunded_amount", .integer, false⟩,
    ⟨"created_at", .timestamp, false⟩, ⟨"updated_at", .timestamp, false⟩]

def values (row : PaymentRow) : List SqlValue :=
  [.uuid row.id, .text row.merchantId, .int row.amount, .text row.currency,
    .text row.status.value, .text row.paymentMethodType, .text row.idempotencyKey,
    .text row.requestFingerprint, .ofText row.provider, .ofText row.providerReference,
    .int row.refundedAmount, .time row.createdAt, .time row.updatedAt]

end PaymentRow

/-- The values of the rows that a payment is stored in fit their columns. -/
def Persistable (payment : Payment) : Prop :=
  List.Forall₂ Column.Accepts MerchantRow.columns
      (MerchantRow.values (payment.merchantId, payment.createdAt)) ∧
    List.Forall₂ Column.Accepts PaymentRow.columns
      (SqlAlchemyPaymentRepository.newRow payment).values

theorem status_length (status : PaymentStatus) : status.value.length ≤ 20 := by
  cases status <;> decide

theorem accepts_ofText {name : String} {length : ℕ} (s : Option String) :
    Column.Accepts ⟨name, .string length, true⟩ (.ofText s) ↔ ∀ x ∈ s, x.length ≤ length := by
  cases s with
  | none => simp [Column.Accepts, SqlValue.ofText]
  | some s => simp [Column.Accepts, SqlValue.ofText, ColumnType.Holds]

theorem persistable_iff (payment : Payment) :
    Persistable payment ↔
      payment.merchantId.length ≤ 100 ∧
      (-2147483648 ≤ payment.amount ∧ payment.amount ≤ 2147483647) ∧
      payment.currency.length ≤ 3 ∧ payment.paymentMethodType.length ≤ 30 ∧
      payment.idempotencyKey.length ≤ 255 ∧ payment.requestFingerprint.length ≤ 64 ∧
      (∀ x ∈ payment.provider, x.length ≤ 50) ∧ (∀ x ∈ payment.providerReference, x.length ≤ 255) ∧
      -2147483648 ≤ payment.refundedAmount ∧ payment.refundedAmount ≤ 2147483647 := by
  have status := status_length payment.status
  simp only [Persistable, MerchantRow.columns, MerchantRow.values, PaymentRow.columns,
    PaymentRow.values, SqlAlchemyPaymentRepository.newRow, List.forall₂_cons,
    List.forall₂_nil_left_iff, accepts_ofText]
  simp [Column.Accepts, ColumnType.Holds, status]

end PySwitch
