import Quadrotor.Scalar.Decimal

/-!
# Errors

The ways in which a configuration is refused, a parameter record cannot be read or written, a
parameter name is rejected, and a flight is at fault; with the sentence that each of them is
reported with.
-/

namespace Quadrotor

/-- A static configuration that no control loop is built from. -/
inductive ConfigError where
  /-- The loop period [µs] is out of range. -/
  | loopPeriod (period : UInt32)
  /-- A filter cutoff [Hz] is not finite and positive. -/
  | cutoff (frequency : Scalar)
  /-- The named threshold is out of range. -/
  | threshold (name : String)
  /-- The named rate is not finite and positive. -/
  | rate (name : String)
  /-- The expo of the named curve is out of range. -/
  | expo (name : String)
  /-- An auxiliary channel of that number does not exist. -/
  | auxChannel (index : UInt8)
  /-- A timeout of no ticks at all. -/
  | zeroTimeout
  /-- Gestures sampled every zero ticks. -/
  | zeroDivider
  deriving BEq, Repr, Inhabited

namespace ConfigError

/-- The sentence that reports the error. -/
def message : ConfigError → String
  | loopPeriod p => s!"The loop period must be at least 100 us, got {p} us."
  | cutoff f => s!"Filter cutoff must be a finite, positive frequency, got {f.plain} Hz."
  | threshold n => "Threshold `" ++ n ++ "` is outside its valid range."
  | rate n => "Rate `" ++ n ++ "` must be a finite, positive value."
  | expo n => "Expo `" ++ n ++ "` must lie within [0, 1]."
  | auxChannel i => s!"Aux channel {i} does not exist."
  | zeroTimeout => "A timeout window of zero ticks is not allowed."
  | zeroDivider => "The gesture sampling divider must be non-zero."

/-- The kind of the error, as a listing names it. -/
def kind : ConfigError → String
  | loopPeriod _ => "InvalidLoopPeriod"
  | cutoff _ => "InvalidCutoff"
  | threshold _ => "InvalidThreshold"
  | rate _ => "InvalidRate"
  | expo _ => "InvalidExpo"
  | auxChannel _ => "InvalidAuxChannel"
  | zeroTimeout => "ZeroTimeout"
  | zeroDivider => "ZeroDivider"

/-- Kind and detail, as a listing shows them. -/
def listing (e : ConfigError) : String :=
  match e with
  | loopPeriod p => s!"{e.kind}({p})"
  | cutoff f => s!"{e.kind}({f.literal})"
  | threshold n | rate n | expo n => e.kind ++ "(\"" ++ n ++ "\")"
  | auxChannel i => s!"{e.kind}({i})"
  | zeroTimeout | zeroDivider => e.kind

end ConfigError

/-- The outcome of checking a part of the configuration. -/
abbrev Check := Except ConfigError Unit

/-- `e` unless `ok`. -/
def require (ok : Bool) (e : ConfigError) : Check := if ok then .ok () else .error e

/-- A payload that does not encode a parameter set. -/
inductive EncodingError where
  /-- There is no room for the whole payload. -/
  | bufferFull
  /-- The payload ends early. -/
  | unexpectedEnd
  /-- A byte is not one that the layout allows in its place. -/
  | badEncoding
  deriving DecidableEq, Repr, Inhabited

namespace EncodingError

/-- The sentence that reports the error. -/
def message : EncodingError → String
  | bufferFull => "The serialize buffer is full"
  | unexpectedEnd => "Hit the end of buffer, expected more data"
  | badEncoding => "The stored record does not decode as the expected layout"

/-- The kind of the error, as a listing names it. -/
def kind : EncodingError → String
  | bufferFull => "SerializeBufferFull"
  | unexpectedEnd => "DeserializeUnexpectedEnd"
  | badEncoding => "DeserializeBadEncoding"

end EncodingError

/-- A storage medium that refuses an access. -/
inductive MediumError where
  /-- An address or a length is not a multiple of the medium's grain. -/
  | notAligned
  /-- The access leaves the medium. -/
  | outOfBounds
  /-- A failure of the medium's own. -/
  | other
  deriving DecidableEq, Repr, Inhabited

namespace MediumError

/-- The sentence that reports the error. -/
def message : MediumError → String
  | notAligned => "The arguments are not properly aligned."
  | outOfBounds => "The arguments are out of bounds."
  | other => "Error specific to the implementation."

/-- The kind of the error, as a listing names it. -/
def kind : MediumError → String
  | notAligned => "NotAligned"
  | outOfBounds => "OutOfBounds"
  | other => "Other"

end MediumError

/-- A parameter set that is not loaded or not saved. -/
inductive StoreError where
  /-- No intact record of a valid parameter set is stored. -/
  | useDefaults
  /-- The record does not fit into its region. -/
  | recordTooLarge
  /-- An intact record does not hold a parameter set. -/
  | encoding (e : EncodingError)
  /-- The medium refuses the access. -/
  | medium (e : MediumError)
  deriving DecidableEq, Repr, Inhabited

namespace StoreError

/-- The sentence that reports the error. -/
def message : StoreError → String
  | useDefaults => "No valid parameter record exists, defaults should be used."
  | recordTooLarge => "The parameter record does not fit in the storage region."
  | encoding e => "Postcard ser/de error: " ++ e.message
  | medium e => "Embedded storage error: " ++ e.message

/-- The kind of the error, as a listing names it. -/
def kind : StoreError → String
  | useDefaults => "UseDefaults"
  | recordTooLarge => "RecordTooLarge"
  | encoding _ => "Postcard"
  | medium _ => "Storage"

/-- Kind and detail, as a listing shows them. -/
def listing (e : StoreError) : String :=
  match e with
  | useDefaults | recordTooLarge => e.kind
  | encoding c => s!"{e.kind}({c.kind})"
  | medium c => s!"{e.kind}({c.kind})"

end StoreError

/-- A named parameter that is not read or not written. -/
inductive ParamError where
  /-- No parameter has that name. -/
  | unknownName
  /-- The value is out of the parameter's range. -/
  | invalidValue
  deriving DecidableEq, Repr, Inhabited

namespace ParamError

/-- The sentence that reports the error. -/
def message : ParamError → String
  | unknownName => "No parameter with the given name exists."
  | invalidValue => "The value is outside the valid range of the parameter."

/-- The kind of the error, as a listing names it. -/
def kind : ParamError → String
  | unknownName => "UnknownName"
  | invalidValue => "InvalidValue"

end ParamError

end Quadrotor
