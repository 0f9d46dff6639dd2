import MailCapture.Pod.Shape.Container
/-!
The shapes of volumes, by the source of their files.
-/
namespace MailCapture.Shape

def secretReference : Shape := named ["name"]

/-! ### Entries of objects as files -/

def entryFiles : Shape := .list (.record (text.each ["key", "path"]) (int32.each ["mode"]))

def fieldFiles : Shape := .list (.record (text.each ["path"])
  (int32.each ["mode"] ++ [("fieldRef", fieldReference), ("resourceFieldRef", resourceReference)]))

def configMapVolume : Shape := .record (text.each ["name"])
  (int32.each ["defaultMode"] ++ flag.each ["optional"] ++ [("items", entryFiles)])

def secretVolume : Shape := .record []
  (int32.each ["defaultMode"] ++ flag.each ["optional"] ++ text.each ["secretName"] ++
    [("items", entryFiles)])

def fieldVolume : Shape := .record [] (int32.each ["defaultMode"] ++ [("items", fieldFiles)])

def projectedObject : Shape :=
  .record (text.each ["name"]) (flag.each ["optional"] ++ [("items", entryFiles)])

def projectedSource : Shape := .record [] [
  ("clusterTrustBundle", .record (text.each ["path"])
    (text.each ["name", "signerName"] ++ flag.each ["optional"] ++
      [("labelSelector", labelSelector)])),
  ("configMap", projectedObject),
  ("downwardAPI", .record [] [("items", fieldFiles)]),
  ("secret", projectedObject),
  ("serviceAccountToken", .record (text.each ["path"])
    (text.each ["audience"] ++ int64.each ["expirationSeconds"]))]

def projectedVolume : Shape :=
  .record [] (int32.each ["defaultMode"] ++ [("sources", .list projectedSource)])

/-! ### Claims -/

def volumeClaim : Shape := .record []
  (texts.each ["accessModes"] ++
    text.each ["storageClassName", "volumeAttributesClassName", "volumeMode", "volumeName"] ++
    [("dataSource", typedReference []), ("dataSourceRef", typedReference ["namespace"]),
      ("resources", .record [] (textMap.each ["limits", "requests"])),
      ("selector", labelSelector)])

def claimTemplate : Shape := .record [("spec", volumeClaim)] [("metadata", metadata)]

/-! ### Storage of a network or a cloud -/

def mountable (always sometimes : List String) : Shape :=
  .record (text.each always) (text.each sometimes ++ flag.each ["readOnly"])

def withSecret (always sometimes : List String) (secret : String) : Shape :=
  .record (text.each always)
    (text.each sometimes ++ flag.each ["readOnly"] ++ secretReference.each [secret])

def partitioned (name : String) : Shape :=
  .record (text.each [name]) (text.each ["fsType"] ++ int32.each ["partition"] ++
    flag.each ["readOnly"])

def cephfs : Shape := .record [("monitors", texts)]
  (text.each ["path", "secretFile", "user"] ++ flag.each ["readOnly"] ++
    secretReference.each ["secretRef"])

def csi : Shape := .record (text.each ["driver"])
  (text.each ["fsType"] ++ flag.each ["readOnly"] ++ textMap.each ["volumeAttributes"] ++
    secretReference.each ["nodePublishSecretRef"])

def fibreChannel : Shape := .record []
  (text.each ["fsType"] ++ int32.each ["lun"] ++ flag.each ["readOnly"] ++
    texts.each ["targetWWNs", "wwids"])

def flexVolume : Shape := .record (text.each ["driver"])
  (text.each ["fsType"] ++ flag.each ["readOnly"] ++ textMap.each ["options"] ++
    secretReference.each ["secretRef"])

def iscsi : Shape := .record (text.each ["iqn", "targetPortal"] ++ int32.each ["lun"])
  (text.each ["fsType", "initiatorName", "iscsiInterface"] ++ texts.each ["portals"] ++
    flag.each ["chapAuthDiscovery", "chapAuthSession", "readOnly"] ++
    secretReference.each ["secretRef"])

def rbd : Shape := .record (text.each ["image"] ++ texts.each ["monitors"])
  (text.each ["fsType", "keyring", "pool", "user"] ++ flag.each ["readOnly"] ++
    secretReference.each ["secretRef"])

def scaleIO : Shape :=
  .record (text.each ["gateway", "system"] ++ secretReference.each ["secretRef"])
    (text.each ["fsType", "protectionDomain", "storageMode", "storagePool", "volumeName"] ++
      flag.each ["readOnly", "sslEnabled"])

def volumeSources : List (String × Shape) := [
  ("awsElasticBlockStore", partitioned "volumeID"),
  ("azureDisk", mountable ["diskName", "diskURI"] ["cachingMode", "fsType", "kind"]),
  ("azureFile", mountable ["secretName", "shareName"] []),
  ("cephfs", cephfs),
  ("cinder", withSecret ["volumeID"] ["fsType"] "secretRef"),
  ("configMap", configMapVolume),
  ("csi", csi),
  ("downwardAPI", fieldVolume),
  ("emptyDir", optionalTexts ["medium", "sizeLimit"]),
  ("ephemeral", .record [] [("volumeClaimTemplate", claimTemplate)]),
  ("fc", fibreChannel),
  ("flexVolume", flexVolume),
  ("flocker", optionalTexts ["datasetName", "datasetUUID"]),
  ("gcePersistentDisk", partitioned "pdName"),
  ("gitRepo", .record (text.each ["repository"]) (text.each ["directory", "revision"])),
  ("glusterfs", mountable ["endpoints", "path"] []),
  ("hostPath", .record (text.each ["path"]) (text.each ["type"])),
  ("image", optionalTexts ["pullPolicy", "reference"]),
  ("iscsi", iscsi),
  ("nfs", mountable ["path", "server"] []),
  ("persistentVolumeClaim", mountable ["claimName"] []),
  ("photonPersistentDisk", .record (text.each ["pdID"]) (text.each ["fsType"])),
  ("portworxVolume", mountable ["volumeID"] ["fsType"]),
  ("projected", projectedVolume),
  ("quobyte", mountable ["registry", "volume"] ["group", "tenant", "user"]),
  ("rbd", rbd),
  ("scaleIO", scaleIO),
  ("secret", secretVolume),
  ("storageos", withSecret [] ["fsType", "volumeName", "volumeNamespace"] "secretRef"),
  ("vsphereVolume",
    .record (text.each ["volumePath"])
      (text.each ["fsType", "storagePolicyID", "storagePolicyName"]))]

def volume : Shape := .record (text.each ["name"]) volumeSources

end MailCapture.Shape
