import MailCapture.Instance.Schema
/-!
The definition by which a cluster comes to know instance records.
-/
namespace MailCapture.Instance

structure Column where
  name : String
  typeName : String
  jsonPath : String
  deriving DecidableEq, Repr

namespace Column

def toJson (c : Column) : Json := .obj [
  ("jsonPath", .str c.jsonPath), ("name", .str c.name), ("type", .str c.typeName)]

end Column

def columns : List Column := [
  ⟨"Backing", "string", ".spec.backingResource"⟩,
  ⟨"Pods", "integer", ".status.podCount"⟩,
  ⟨"Ready", "integer", ".status.readyPodCount"⟩,
  ⟨"URL", "string", ".status.url"⟩,
  ⟨"Error", "string", ".status.error"⟩,
  ⟨"Age", "date", ".metadata.creationTimestamp"⟩]

def subresources : Json := .obj [
  ("scale", .obj [
    ("labelSelectorPath", .str ".status.labelSelector"),
    ("specReplicasPath", .str ".spec.replicas"),
    ("statusReplicasPath", .str ".status.podCount")]),
  ("status", .empty)]

def titledSchema : Json :=
  .obj (Entries.put schema.fields "title" (.str kindName))

def definition : Json := .obj [
  ("apiVersion", .str "apiextensions.k8s.io/v1"),
  ("kind", .str "CustomResourceDefinition"),
  ("metadata", .obj [("name", .str (plural ++ "." ++ group))]),
  ("spec", .obj [
    ("group", .str group),
    ("names", .obj [
      ("categories", .arr []),
      ("kind", .str kindName),
      ("plural", .str plural),
      ("shortNames", Wire.strings ["mh"]),
      ("singular", .str "mailhoginstance")]),
    ("scope", .str "Namespaced"),
    ("versions", .arr [.obj [
      ("additionalPrinterColumns", .arr (columns.map Column.toJson)),
      ("name", .str "v1alpha1"),
      ("schema", .obj [("openAPIV3Schema", titledSchema)]),
      ("served", .bool true),
      ("storage", .bool true),
      ("subresources", subresources)]])])]

end MailCapture.Instance
