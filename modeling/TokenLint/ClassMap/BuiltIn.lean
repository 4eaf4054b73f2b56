import TokenLint.ClassMap

/-!
# The built-in class map

A sample of the classes that got new names with version 6 of the system. Projects configure
a complete map of their own.
-/

namespace TokenLint.ClassMap

/-- The pairs of the built-in map. -/
def builtInPairs : List (Text × Text) :=
  [("Tx_Extbase_Object_ObjectManager", "TYPO3\\CMS\\Extbase\\Object\\ObjectManager"),
   ("Tx_Extbase_Object_ObjectManagerInterface",
    "TYPO3\\CMS\\Extbase\\Object\\ObjectManagerInterface"),
   ("Tx_Extbase_Domain_Model_FrontendUser", "TYPO3\\CMS\\Extbase\\Domain\\Model\\FrontendUser"),
   ("Tx_Extbase_Domain_Model_FrontendUserGroup",
    "TYPO3\\CMS\\Extbase\\Domain\\Model\\FrontendUserGroup"),
   ("Tx_Extbase_Domain_Repository_FrontendUserRepository",
    "TYPO3\\CMS\\Extbase\\Domain\\Repository\\FrontendUserRepository"),
   ("Tx_Extbase_MVC_Controller_ActionController",
    "TYPO3\\CMS\\Extbase\\Mvc\\Controller\\ActionController"),
   ("Tx_Extbase_Persistence_ObjectStorage", "TYPO3\\CMS\\Extbase\\Persistence\\ObjectStorage"),
   ("Tx_Extbase_Persistence_QueryInterface", "TYPO3\\CMS\\Extbase\\Persistence\\QueryInterface"),
   ("Tx_Extbase_Utility_Localization", "TYPO3\\CMS\\Extbase\\Utility\\LocalizationUtility"),
   ("Tx_Extbase_Service_TypoScriptService", "TYPO3\\CMS\\Extbase\\Service\\TypoScriptService"),
   ("Tx_Fluid_View_StandaloneView", "TYPO3\\CMS\\Fluid\\View\\StandaloneView"),
   ("Tx_Fluid_View_TemplateView", "TYPO3\\CMS\\Fluid\\View\\TemplateView"),
   ("Tx_Fluid_Core_ViewHelper_AbstractViewHelper",
    "TYPO3\\CMS\\Fluid\\Core\\ViewHelper\\AbstractViewHelper"),
   ("t3lib_div", "TYPO3\\CMS\\Core\\Utility\\GeneralUtility"),
   ("t3lib_extMgm", "TYPO3\\CMS\\Core\\Utility\\ExtensionManagementUtility"),
   ("t3lib_Singleton", "TYPO3\\CMS\\Core\\SingletonInterface"),
   ("tslib_cObj", "TYPO3\\CMS\\Frontend\\ContentObject\\ContentObjectRenderer")]

/-- The built-in map. -/
def builtIn : ClassMap := ofPairs builtInPairs

end TokenLint.ClassMap
