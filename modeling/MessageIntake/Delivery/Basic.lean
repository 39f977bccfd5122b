import MessageIntake.Delivery.Properties

/-!
# Deliveries

One received message with what the broker says about it. The delivery
tag names it on its channel; it is settled under that tag.
-/

namespace MessageIntake

structure Delivery where
  consumerTag : String
  tag : UInt64
  redelivered : Bool
  exchange : String
  routingKey : String
  properties : Properties
  body : ByteArray
  deriving Inhabited

namespace Delivery

/-- Deliveries are compared part by part, bodies by their bytes. -/
instance : DecidableEq Delivery := fun a b =>
  decidable_of_iff
    (a.consumerTag = b.consumerTag ∧ a.tag = b.tag ∧ a.redelivered = b.redelivered ∧
      a.exchange = b.exchange ∧ a.routingKey = b.routingKey ∧ a.properties = b.properties ∧
      a.body.data = b.body.data)
    (by cases a; cases b; simp [ByteArray.ext_iff])

/-- The delivery in a sentence; the body by its length in bytes. -/
def message (d : Delivery) : String :=
  s!"DeliveryEnvelope [consumerTag={d.consumerTag}, deliveryTag={d.tag}, redelivered={Text.truth d.redelivered}, exchange={d.exchange}, routingKey={d.routingKey}, bodyLength={d.body.size}]"

/-- The delivery for a developer. -/
def inspect (d : Delivery) : String :=
  Text.record "DeliveryEnvelope"
    [("consumer_tag", Text.quoted d.consumerTag), ("delivery_tag", toString d.tag),
      ("redelivered", Text.truth d.redelivered), ("exchange", Text.quoted d.exchange),
      ("routing_key", Text.quoted d.routingKey), ("properties", d.properties.inspect),
      ("body", Text.quotedBytes d.body)]

end Delivery

end MessageIntake
