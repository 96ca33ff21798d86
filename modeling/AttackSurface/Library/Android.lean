/-! The Android framework and the Java runtime: their packages, and the methods that pass data
into or out of an application. A table lists a method by its name alone, or as `Class.method`. -/
namespace AttackSurface.Library.Android

def packages : List String :=
  ["android.", "com.android.", "com.google.android.", "dalvik.", "java.", "javax."]

def inputs : List String := [
  "ContentResolver.query", "onActivityResult", "onBind", "onCreate", "onRestoreInstanceState",
  "onStartCommand"]

def outputs : List String := [
  "ContentResolver.delete", "ContentResolver.insert", "ContentResolver.update", "bindService",
  "getSharedPreferences", "onCreateView", "onSaveInstanceState", "openFileOutput",
  "openOrCreateDatabase", "sendBroadcast", "sendOrderedBroadcast", "sendStickyBroadcast",
  "startActivity", "startActivityForResult", "startService"]

end AttackSurface.Library.Android
